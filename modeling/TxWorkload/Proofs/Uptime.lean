import Mathlib.Data.List.TakeWhile
import TxWorkload.Proofs.Text.Numeral
import TxWorkload.Uptime

/-!
# Uptime — clock texts that read back

A clock text is a time of day, with a number of days in front from one day on. It stands for the
seconds that its fields make up together. Each number of seconds has one clock text, and a reader
accepts the clock texts and nothing else. So the text of an uptime tells how many whole seconds have
passed, for any number of days, and it tells nothing more.
-/

namespace TxWorkload
namespace Uptime

open Text (Numeral twoDigits unsignedNumeral?)

variable {bound number : Nat} {cs cs' : List Char}

/-! ## Clock texts -/

/-- Whether characters are a field of a clock: two digits that denote a number below a bound. -/
structure Field (bound : Nat) (cs : List Char) (number : Nat) : Prop where
  numeral : Numeral 10 cs number
  length : cs.length = 2
  lt : number < bound

/-- Whether characters are a time of day, `HH:MM:SS`, and how many seconds it stands for. -/
inductive TimeOfDay : List Char → Nat → Prop
  | fields {hh mm ss : List Char} {hours minutes seconds : Nat} (hhours : Field 24 hh hours)
      (hminutes : Field 60 mm minutes) (hseconds : Field 60 ss seconds) :
      TimeOfDay (hh ++ ':' :: (mm ++ ':' :: ss)) (hours * 3600 + minutes * 60 + seconds)

/-- Whether characters are a number of days, without zeros in front, and a time of day. -/
inductive Dated : List Char → Nat → Prop
  | days {dd time : List Char} {days seconds : Nat} (hdays : Numeral 10 dd days)
      (hlead : dd.head? ≠ some '0') (hpos : 1 ≤ days) (htime : TimeOfDay time seconds) :
      Dated (dd ++ 'd' :: ' ' :: time) (days * 86400 + seconds)

/-- Whether characters are a clock text, and how many seconds it stands for. -/
def ClockText (cs : List Char) (number : Nat) : Prop :=
  TimeOfDay cs number ∨ Dated cs number

theorem TimeOfDay.lt (h : TimeOfDay cs number) : number < 86400 := by
  cases h with
  | fields hhours hminutes hseconds =>
      have hh := hhours.lt
      have hm := hminutes.lt
      have hs := hseconds.lt
      omega

theorem Dated.le (h : Dated cs number) : 86400 ≤ number := by
  cases h with
  | days hdays hlead hpos htime => omega

/-! ## One text for each number -/

theorem Field.eq (h : Field bound cs number) (h' : Field bound cs' number) : cs = cs' :=
  h.numeral.eq_of_length h'.numeral (h.length.trans h'.length.symm)

/-- The fields of a time of day are the quotients and the remainder of its seconds. -/
theorem TimeOfDay.exists_fields (h : TimeOfDay cs number) :
    ∃ hh mm ss, cs = hh ++ ':' :: (mm ++ ':' :: ss) ∧ Field 24 hh (number / 3600) ∧
      Field 60 mm (number % 3600 / 60) ∧ Field 60 ss (number % 60) := by
  cases h with
  | @fields hh mm ss hours minutes seconds hhours hminutes hseconds =>
      have hm := hminutes.lt
      have hs := hseconds.lt
      obtain ⟨hhour, hminute, hsecond⟩ :
          (hours * 3600 + minutes * 60 + seconds) / 3600 = hours ∧
          (hours * 3600 + minutes * 60 + seconds) % 3600 / 60 = minutes ∧
          (hours * 3600 + minutes * 60 + seconds) % 60 = seconds := by omega
      refine ⟨hh, mm, ss, rfl, ?_, ?_, ?_⟩
      · rwa [hhour]
      · rwa [hminute]
      · rwa [hsecond]

theorem TimeOfDay.eq (h : TimeOfDay cs number) (h' : TimeOfDay cs' number) : cs = cs' := by
  rcases h.exists_fields with ⟨hh, mm, ss, rfl, hhours, hminutes, hseconds⟩
  rcases h'.exists_fields with ⟨hh', mm', ss', rfl, hhours', hminutes', hseconds'⟩
  rw [hhours.eq hhours', hminutes.eq hminutes', hseconds.eq hseconds']

theorem Dated.exists_days (h : Dated cs number) :
    ∃ dd time, cs = dd ++ 'd' :: ' ' :: time ∧ Numeral 10 dd (number / 86400) ∧
      dd.head? ≠ some '0' ∧ TimeOfDay time (number % 86400) := by
  cases h with
  | @days dd time days seconds hdays hlead hpos htime =>
      have hlt := htime.lt
      obtain ⟨hday, hrest⟩ : (days * 86400 + seconds) / 86400 = days ∧
          (days * 86400 + seconds) % 86400 = seconds := by omega
      refine ⟨dd, time, rfl, ?_, hlead, ?_⟩
      · rwa [hday]
      · rwa [hrest]

theorem Dated.eq (h : Dated cs number) (h' : Dated cs' number) : cs = cs' := by
  rcases h.exists_days with ⟨dd, time, rfl, hdays, hlead, htime⟩
  rcases h'.exists_days with ⟨dd', time', rfl, hdays', hlead', htime'⟩
  rw [hdays.eq_of_head? hdays' hlead hlead', htime.eq htime']

theorem ClockText.eq (h : ClockText cs number) (h' : ClockText cs' number) : cs = cs' := by
  rcases h with htime | hdated
  · rcases h' with htime' | hdated'
    · exact htime.eq htime'
    · exact absurd hdated'.le (Nat.not_le.2 htime.lt)
  · rcases h' with htime' | hdated'
    · exact absurd hdated.le (Nat.not_le.2 htime'.lt)
    · exact hdated.eq hdated'

/-! ## Writing -/

theorem field_twoDigits (h : number < bound) (hbound : bound ≤ 100) :
    Field bound (twoDigits number).toList number where
  numeral := Text.numeral_twoDigits (Nat.lt_of_lt_of_le h hbound)
  length := by rw [Text.toList_twoDigits (Nat.lt_of_lt_of_le h hbound)]; rfl
  lt := h

theorem toList_time (hours minutes seconds : Nat) :
    (twoDigits hours ++ ":" ++ twoDigits minutes ++ ":" ++ twoDigits seconds).toList =
      (twoDigits hours).toList ++
        ':' :: ((twoDigits minutes).toList ++ ':' :: (twoDigits seconds).toList) := by
  simp

theorem timeOfDay_time (total : Nat) {rest : Nat} (hrest : total % 86400 = rest) :
    TimeOfDay (twoDigits (total % 86400 / 3600) ++ ":" ++ twoDigits (total % 3600 / 60) ++ ":" ++
      twoDigits (total % 60)).toList rest := by
  have hhours : Field 24 _ (total % 86400 / 3600) := field_twoDigits (by omega) (by decide)
  have hminutes : Field 60 _ (total % 3600 / 60) := field_twoDigits (by omega) (by decide)
  have hseconds : Field 60 _ (total % 60) := field_twoDigits (by omega) (by decide)
  have hsum : total % 86400 / 3600 * 3600 + total % 3600 / 60 * 60 + total % 60 = rest := by
    omega
  have htime := TimeOfDay.fields hhours hminutes hseconds
  rwa [hsum, ← toList_time] at htime

/-- What is written for some seconds is a clock text that stands for them, and has a number of days
in front from one day on. -/
theorem clock_form (total : Nat) :
    total < 86400 ∧ TimeOfDay (clock total).toList total ∨
      86400 ≤ total ∧ Dated (clock total).toList total := by
  unfold clock
  dsimp only
  split
  · rename_i hdays
    have hdated := Dated.days (Text.numeral_toDigits (by decide) (by decide) _)
      (Text.head?_toDigits hdays) hdays (timeOfDay_time total rfl)
    rw [Nat.div_add_mod', ← Nat.toList_repr, ← Nat.toString_eq_repr] at hdated
    refine .inr ⟨by omega, ?_⟩
    rw [String.toList_append, String.toList_append, List.append_assoc]
    exact hdated
  · have hlt : total < 86400 := by omega
    exact .inl ⟨hlt, timeOfDay_time total (Nat.mod_eq_of_lt hlt)⟩

theorem clockText_clock (total : Nat) : ClockText (clock total).toList total :=
  (clock_form total).imp And.right And.right

/-- A clock text is what is written for the seconds that it stands for. -/
theorem clockText_iff : ClockText cs number ↔ cs = (clock number).toList := by
  constructor
  · intro h
    exact h.eq (clockText_clock number)
  · rintro rfl
    exact clockText_clock number

/-! ## Reading -/

/-- The number of a field below a bound. -/
def field? (bound : Nat) (first last : Char) : Option Nat :=
  (unsignedNumeral? [first, last]).filter (· < bound)

/-- The seconds of a time of day. -/
def timeOfDay? : List Char → Option Nat
  | [h, h', ':', m, m', ':', s, s'] => do
      let hours ← field? 24 h h'
      let minutes ← field? 60 m m'
      let seconds ← field? 60 s s'
      return hours * 3600 + minutes * 60 + seconds
  | _ => none

/-- A number of days; there are no zeros in front. -/
def days? : List Char → Option Nat
  | '0' :: _ => none
  | cs => unsignedNumeral? cs

/-- The seconds that a clock text stands for. -/
def seconds? (cs : List Char) : Option Nat :=
  match cs.dropWhile (· ≠ 'd') with
  | [] => timeOfDay? cs
  | 'd' :: ' ' :: time => do
      let days ← days? (cs.takeWhile (· ≠ 'd'))
      let seconds ← timeOfDay? time
      return days * 86400 + seconds
  | _ => none

theorem field?_eq_some_iff {first last : Char} :
    field? bound first last = some number ↔ Field bound [first, last] number := by
  rw [field?, Option.filter_eq_some_iff, Text.unsignedNumeral?_eq_some_iff, decide_eq_true_iff]
  constructor
  · rintro ⟨hnumeral, hlt⟩
    exact ⟨hnumeral, rfl, hlt⟩
  · intro h
    exact ⟨h.numeral, h.lt⟩

theorem Field.exists_chars (h : Field bound cs number) :
    ∃ first last, cs = [first, last] ∧ field? bound first last = some number := by
  rcases List.length_eq_two.1 h.length with ⟨first, last, rfl⟩
  exact ⟨first, last, rfl, field?_eq_some_iff.2 h⟩

theorem timeOfDay?_eq_some_iff : timeOfDay? cs = some number ↔ TimeOfDay cs number := by
  constructor
  · intro h
    unfold timeOfDay? at h
    split at h
    · simp only [Option.bind_eq_bind, Option.bind_eq_some_iff] at h
      rcases h with ⟨hours, hhours, minutes, hminutes, seconds, hseconds, hsum⟩
      cases hsum
      exact .fields (field?_eq_some_iff.1 hhours) (field?_eq_some_iff.1 hminutes)
        (field?_eq_some_iff.1 hseconds)
    · cases h
  · intro h
    cases h with
    | fields hhours hminutes hseconds =>
        rcases hhours.exists_chars with ⟨h, h', rfl, hh⟩
        rcases hminutes.exists_chars with ⟨m, m', rfl, hm⟩
        rcases hseconds.exists_chars with ⟨s, s', rfl, hs⟩
        simp [timeOfDay?, hh, hm, hs]

theorem days?_eq_some_iff :
    days? cs = some number ↔ Numeral 10 cs number ∧ cs.head? ≠ some '0' := by
  unfold days?
  split
  · simp
  · rename_i hlead
    rw [Text.unsignedNumeral?_eq_some_iff]
    refine (and_iff_left fun hzero => ?_).symm
    rcases List.head?_eq_some_iff.1 hzero with ⟨cs', rfl⟩
    exact hlead cs' rfl

/-- No numeral and no time of day holds the letter that ends a number of days. -/
theorem ne_of_mem_numeral (h : Numeral 10 cs number) : ∀ c ∈ cs, decide (c ≠ 'd') = true := by
  intro c hc
  rcases h.exists_digit hc with ⟨value, hdigit⟩
  refine decide_eq_true fun heq => ?_
  have hnone : ∀ v < 10, 'd' ≠ Nat.digitChar v := by decide
  exact hnone value hdigit.1 (heq ▸ Text.eq_digitChar hdigit)

theorem ne_of_mem_timeOfDay (h : TimeOfDay cs number) : ∀ c ∈ cs, decide (c ≠ 'd') = true := by
  intro c hc
  cases h with
  | fields hhours hminutes hseconds =>
      simp only [List.mem_append, List.mem_cons] at hc
      rcases hc with hc | rfl | hc | rfl | hc
      · exact ne_of_mem_numeral hhours.numeral c hc
      · decide
      · exact ne_of_mem_numeral hminutes.numeral c hc
      · decide
      · exact ne_of_mem_numeral hseconds.numeral c hc

/-- The reader accepts the clock texts and nothing else. -/
theorem seconds?_eq_some_iff : seconds? cs = some number ↔ ClockText cs number := by
  unfold seconds?
  constructor
  · intro h
    split at h
    · exact .inl (timeOfDay?_eq_some_iff.1 h)
    · rename_i time hrest
      simp only [Option.bind_eq_bind, Option.bind_eq_some_iff] at h
      rcases h with ⟨days, hdays, seconds, hseconds, hsum⟩
      cases hsum
      rcases days?_eq_some_iff.1 hdays with ⟨hnumeral, hlead⟩
      refine .inr ?_
      rw [← List.takeWhile_append_dropWhile (p := (· ≠ 'd')) (l := cs), hrest]
      exact .days hnumeral hlead (hnumeral.exists_digits hlead).2
        (timeOfDay?_eq_some_iff.1 hseconds)
    · cases h
  · rintro (htime | hdated)
    · have hnone : cs.dropWhile (· ≠ 'd') = [] :=
        List.dropWhile_eq_nil_iff.2 (ne_of_mem_timeOfDay htime)
      rw [hnone]
      exact timeOfDay?_eq_some_iff.2 htime
    · cases hdated with
      | @days dd time days seconds hdays hlead hpos htime =>
          have hne := ne_of_mem_numeral hdays
          have hread : days? dd = some days := days?_eq_some_iff.2 ⟨hdays, hlead⟩
          rw [List.dropWhile_append_of_pos hne, List.takeWhile_append_of_pos hne]
          simp [hread, timeOfDay?_eq_some_iff.2 htime]

/-! ## Uptimes -/

/-- The seconds that the text of an uptime shows. -/
def shown (u : Uptime) : Nat :=
  u.wholeSeconds.toNat

/-- The text of an uptime shows its whole seconds, cut off toward zero, or none if it is negative:
as a time of day below one day, and from one day on with the number of days in front. A reader of
clock texts finds these seconds in it, and it is what the reader takes for them in any text. So two
uptimes have the same text if and only if they show the same seconds. -/
theorem text_tells_seconds (u : Uptime) :
    (u.shown : Int) = max 0 (u.nanos.tdiv (10 ^ 9)) ∧
    (u.shown < 86400 ∧ TimeOfDay u.text.toList u.shown ∨
      86400 ≤ u.shown ∧ Dated u.text.toList u.shown) ∧
    seconds? u.text.toList = some u.shown ∧
    (∀ text : String, seconds? text.toList = some u.shown ↔ text = u.text) ∧
    ∀ v : Uptime, u.text = v.text ↔ u.shown = v.shown := by
  have hread : ∀ v : Uptime, seconds? v.text.toList = some v.shown := fun v =>
    seconds?_eq_some_iff.2 (clockText_clock v.shown)
  refine ⟨?_, clock_form u.shown, hread u, fun text => ?_, fun v => ⟨fun h => ?_, fun h => ?_⟩⟩
  · rw [shown, Int.toNat_eq_max, wholeSeconds, max_comm]
    rfl
  · rw [seconds?_eq_some_iff, clockText_iff, String.toList_inj]
    rfl
  · have hboth := hread u
    rw [h, hread v] at hboth
    exact (Option.some.inj hboth).symm
  · exact congrArg clock h

example : (Uptime.mk (-1)).text = "00:00:00" ∧ (Uptime.mk 86399999999999).text = "23:59:59" ∧
    (Uptime.mk 90061000000000).text = "1d 01:01:01" := by
  decide +kernel

end Uptime
end TxWorkload
