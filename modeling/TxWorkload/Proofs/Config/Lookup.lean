import TxWorkload.Config.Environment
import TxWorkload.Proofs.Text.Blank
import TxWorkload.Proofs.Text.Numeral

/-!
# Lookup — which settings come of named values

Five values are looked at, and no other. A number of seconds that cannot be read is refused first;
then the two addresses are checked, and the number of seconds last. Whatever is accepted has passed
the check of all settings, for those that are not looked up pass it in any case.
-/

namespace TxWorkload
namespace Config

open Text (Trims PlusNumeral)

variable {lookup : String → Option String}

/-! ## Texts -/

/-- Whether a text is a number of seconds, with blanks around it. -/
def Seconds (raw : String) (number : Nat) : Prop :=
  number < 2 ^ 64 ∧ ∃ core, Trims raw.toList core ∧ PlusNumeral 10 core number

/-- Whether a text says yes: the word `true`, its letters in either case, with blanks around it. -/
def Affirms (raw : String) : Prop :=
  ∃ core, Trims raw.toList core ∧
    List.Forall₂ (fun c d => c = d ∨ c = d.toUpper) core ['t', 'r', 'u', 'e']

/-- Whether a text begins like the address of an endpoint. -/
def IsAddress (url : String) : Prop :=
  "http://".toList <+: url.toList ∨ "https://".toList <+: url.toList

theorem isUrl_iff {url : String} : isUrl url = true ↔ IsAddress url := by
  rw [isUrl, Bool.or_eq_true, List.isPrefixOf_iff_prefix, List.isPrefixOf_iff_prefix]
  rfl

theorem isUrl_eq_false {url : String} (h : ¬ IsAddress url) : isUrl url = false := by
  rwa [← Bool.not_eq_true, isUrl_iff]

theorem flag_iff {raw : String} : flag raw = true ↔ Affirms raw := by
  have hword : ∀ d ∈ "true".toList, d.toNat < 128 ∧ d.toLower = d := by simp
  rw [flag, Text.sameIgnoringCase_iff hword, Text.trim, String.toList_ofList]
  constructor
  · intro h
    exact ⟨_, Text.trims_trimList _, h⟩
  · rintro ⟨core, htrims, h⟩
    rwa [Text.trimList_eq_iff.2 htrims]

theorem word64?_trimList_iff {raw : String} {word : UInt64} :
    Text.word64? (Text.trimList raw.toList) = some word ↔ Seconds raw word.toNat := by
  rw [Text.word64?_eq_some_iff]
  constructor
  · intro h
    exact ⟨word.toNat_lt, _, Text.trims_trimList _, h⟩
  · rintro ⟨-, core, htrims, h⟩
    rwa [Text.trimList_eq_iff.2 htrims]

theorem exists_word {raw : String} {number : Nat} (h : Seconds raw number) :
    ∃ word : UInt64, Text.word64? (Text.trimList raw.toList) = some word ∧
      word.toNat = number := by
  have hword : (UInt64.ofNat number).toNat = number := UInt64.toNat_ofNat_of_lt' h.1
  rw [← hword] at h
  exact ⟨.ofNat number, word64?_trimList_iff.2 h, hword⟩

/-- A text that is refused is no number of seconds. -/
theorem word64?_trimList_eq_none {raw : String}
    (h : Text.word64? (Text.trimList raw.toList) = none) (number : Nat) :
    ¬ Seconds raw number := by
  intro hseconds
  rcases exists_word hseconds with ⟨word, hword, -⟩
  cases h.symm.trans hword

/-! ## Verdicts -/

/-- The seconds between two transactions: three, unless a number is given. -/
inductive Interval (lookup : String → Option String) : Nat → Prop
  | unset (hnone : lookup "TX_INTERVAL" = none) : Interval lookup 3
  | given {raw : String} {number : Nat} (hraw : lookup "TX_INTERVAL" = some raw)
      (hnumber : Seconds raw number) : Interval lookup number

/-- Whether an address that may be given can be one. -/
def Addressed (lookup : String → Option String) (key : String) : Prop :=
  ∀ url, lookup key = some url → IsAddress url

/-- The settings with the values that are given, and a number of seconds. -/
def given (lookup : String → Option String) (txInterval : Duration) : Config where
  rpcUrl := (lookup "RPC_URL").getD "http://localhost:8545"
  sequencerUrl := (lookup "SEQUENCER_URL").getD "http://localhost:8555"
  txInterval
  burstMode := ((lookup "ENABLE_BURST_MODE").map flag).getD true
  accountKeys := (lookup "ACCOUNT_KEYS").bind keys?

/-- What becomes of named values, by the first flaw in them. -/
inductive Verdict (lookup : String → Option String) : Except Error Config → Prop
  | unreadable {raw : String} (hraw : lookup "TX_INTERVAL" = some raw)
      (hnumber : ∀ number, ¬ Seconds raw number) :
      Verdict lookup (.error (.invalidSetting "TX_INTERVAL" raw))
  | rpcUrl {number : Nat} {url : String} (hinterval : Interval lookup number)
      (hurl : lookup "RPC_URL" = some url) (haddress : ¬ IsAddress url) :
      Verdict lookup (.error (.invalidSetting "RPC_URL" url))
  | sequencerUrl {number : Nat} {url : String} (hinterval : Interval lookup number)
      (hrpc : Addressed lookup "RPC_URL") (hurl : lookup "SEQUENCER_URL" = some url)
      (haddress : ¬ IsAddress url) :
      Verdict lookup (.error (.invalidSetting "SEQUENCER_URL" url))
  | tooLong {number : Nat} (hinterval : Interval lookup number)
      (hrpc : Addressed lookup "RPC_URL") (hsequencer : Addressed lookup "SEQUENCER_URL")
      (hlong : 86400 < number) :
      Verdict lookup
        (.error (.invalidSetting "TX_INTERVAL" (String.ofList (Nat.toDigits 10 number))))
  | accepted {number : Nat} {burstMode : Bool} (hinterval : Interval lookup number)
      (hrpc : Addressed lookup "RPC_URL") (hsequencer : Addressed lookup "SEQUENCER_URL")
      (hshort : number ≤ 86400)
      (hburst : burstMode = true ↔ ∀ raw, lookup "ENABLE_BURST_MODE" = some raw → Affirms raw) :
      Verdict lookup (.ok
        { rpcUrl := (lookup "RPC_URL").getD "http://localhost:8545"
          sequencerUrl := (lookup "SEQUENCER_URL").getD "http://localhost:8555"
          txInterval := .ofSecs (.ofNat number)
          burstMode
          accountKeys := (lookup "ACCOUNT_KEYS").bind keys? })

/-! ## The decision -/

theorem Interval.lt {number : Nat} (h : Interval lookup number) : number < 2 ^ 64 := by
  cases h with
  | unset => decide
  | given _ hnumber => exact hnumber.1

/-- The settings that are not looked up pass the check, so that only the others are left to be
checked. -/
theorem flaw?_given (lookup : String → Option String) (txInterval : Duration) :
    (given lookup txInterval).flaw? =
      if !isUrl (given lookup txInterval).rpcUrl then
        some (.invalidSetting "RPC_URL" (given lookup txInterval).rpcUrl)
      else if !isUrl (given lookup txInterval).sequencerUrl then
        some (.invalidSetting "SEQUENCER_URL" (given lookup txInterval).sequencerUrl)
      else if longestInterval < txInterval then
        some (.invalidSetting "TX_INTERVAL" (toString txInterval.secs))
      else none := by
  -- Attempts, sizes, probability and rounds are at their defaults, which are all in bounds.
  have hcalls : (given lookup txInterval).calls = {} := rfl
  have hbursts : (given lookup txInterval).bursts = {} := rfl
  have hattempts : ({} : Calls).retry.maxAttempts ≠ 0 := by decide
  have hsizes : ¬ ({} : Bursts).most < ({} : Bursts).least := by decide
  have hprobability :
      ¬ (!(0.0 ≤ ({} : Bursts).probability && ({} : Bursts).probability ≤ 1.0)) = true := by
    decide +kernel
  have hevery : ({} : Bursts).every ≠ 0 := by decide
  rw [flaw?, hcalls, hbursts, if_neg hattempts, if_neg hsizes, if_neg hprobability, if_neg hevery]
  rfl

/-- What the check makes of settings. -/
def checked (c : Config) : Except Error Config :=
  match c.flaw? with
  | some cause => .error cause
  | none => .ok c

theorem validate_andThen (c : Config) : (do validate c; return c) = checked c := by
  unfold validate checked
  cases c.flaw? <;> rfl

/-- Once the number of seconds has been read, the check of the settings decides. -/
theorem ofLookup_of_interval {number : Nat} (h : Interval lookup number) :
    ofLookup lookup = checked (given lookup (.ofSecs (.ofNat number))) := by
  rw [← validate_andThen]
  cases h with
  | unset hnone =>
      unfold ofLookup
      rw [hnone]
      rfl
  | @given raw _ hraw hnumber =>
      rcases exists_word hnumber with ⟨word, hword, rfl⟩
      have hread : interval raw = .ok (.ofSecs (.ofNat word.toNat)) := by
        rw [interval, hword, UInt64.ofNat_toNat]
      unfold ofLookup
      rw [hraw]
      simp only [hread]
      rfl

/-- A number of seconds that cannot be read is refused. -/
theorem ofLookup_of_unreadable {raw : String} (hraw : lookup "TX_INTERVAL" = some raw)
    (hnumber : ∀ number, ¬ Seconds raw number) :
    ofLookup lookup = .error (.invalidSetting "TX_INTERVAL" raw) := by
  have hread : interval raw = .error (.invalidSetting "TX_INTERVAL" raw) := by
    unfold interval
    split
    · rename_i word hword
      exact absurd (word64?_trimList_iff.1 hword) (hnumber _)
    · rfl
  unfold ofLookup
  rw [hraw]
  simp only [hread]
  rfl

/-- The number of seconds cannot be read, or there is one. -/
theorem unreadable_or_interval (lookup : String → Option String) :
    (∃ raw, lookup "TX_INTERVAL" = some raw ∧ ∀ number, ¬ Seconds raw number) ∨
      ∃ number, Interval lookup number := by
  cases hraw : lookup "TX_INTERVAL" with
  | none => exact .inr ⟨3, .unset hraw⟩
  | some raw =>
      cases hword : Text.word64? (Text.trimList raw.toList) with
      | none => exact .inl ⟨raw, rfl, word64?_trimList_eq_none hword⟩
      | some word => exact .inr ⟨word.toNat, .given hraw (word64?_trimList_iff.1 hword)⟩

theorem not_addressed {key : String} (h : ¬ Addressed lookup key) :
    ∃ url, lookup key = some url ∧ ¬ IsAddress url := by
  simpa [Addressed] using h

/-- An address that was not given is one. -/
theorem isUrl_getD {key url : String} (hdefault : isUrl url = true) :
    isUrl ((lookup key).getD url) = true ↔ Addressed lookup key := by
  unfold Addressed
  cases lookup key with
  | none => simpa using hdefault
  | some url => simp [isUrl_iff]

theorem isUrl_rpcUrl {txInterval : Duration} :
    isUrl (given lookup txInterval).rpcUrl = true ↔ Addressed lookup "RPC_URL" :=
  isUrl_getD (by decide)

theorem isUrl_sequencerUrl {txInterval : Duration} :
    isUrl (given lookup txInterval).sequencerUrl = true ↔ Addressed lookup "SEQUENCER_URL" :=
  isUrl_getD (by decide)

theorem longestInterval_lt_iff {number : Nat} (h : number < 2 ^ 64) :
    longestInterval < .ofSecs (.ofNat number) ↔ 86400 < number := by
  change Duration.toNanos _ < Duration.toNanos _ ↔ _
  have hword : (UInt64.ofNat number).toNat = number := UInt64.toNat_ofNat_of_lt' h
  have hlongest : longestInterval.toNanos = 86400 * nanosPerSec := by decide
  have hsecs : (Duration.ofSecs (.ofNat number)).toNanos = number * nanosPerSec := by
    rw [Duration.toNanos, Duration.ofSecs, hword, UInt32.toNat_zero, Nat.add_zero]
  rw [hlongest, hsecs]
  exact Nat.mul_lt_mul_right (by decide)

theorem burstMode_iff :
    ((lookup "ENABLE_BURST_MODE").map flag).getD true = true ↔
      ∀ raw, lookup "ENABLE_BURST_MODE" = some raw → Affirms raw := by
  cases lookup "ENABLE_BURST_MODE" with
  | none => simp
  | some raw => simp [flag_iff]

/-- A number of seconds is written in plain decimal. -/
theorem toString_ofNat {number : Nat} (h : number < 2 ^ 64) :
    toString (Duration.ofSecs (.ofNat number)).secs = String.ofList (Nat.toDigits 10 number) := by
  change toString (UInt64.ofNat number).toNat = _
  rw [UInt64.toNat_ofNat_of_lt' h]
  rfl

/-- What is decided of named values is what becomes of them. -/
theorem Verdict.ofLookup_eq {result : Except Error Config} (h : Verdict lookup result) :
    ofLookup lookup = result := by
  cases h with
  | unreadable hraw hnumber => exact ofLookup_of_unreadable hraw hnumber
  | @rpcUrl number url hinterval hurl haddress =>
      have hrpc : (given lookup (.ofSecs (.ofNat number))).rpcUrl = url := by
        rw [given, hurl, Option.getD_some]
      rw [ofLookup_of_interval hinterval, checked, flaw?_given, hrpc, isUrl_eq_false haddress]
      rfl
  | @sequencerUrl number url hinterval hrpc hurl haddress =>
      have hsequencer : (given lookup (.ofSecs (.ofNat number))).sequencerUrl = url := by
        rw [given, hurl, Option.getD_some]
      rw [ofLookup_of_interval hinterval, checked, flaw?_given, isUrl_rpcUrl.2 hrpc, hsequencer,
        isUrl_eq_false haddress]
      rfl
  | tooLong hinterval hrpc hsequencer hlong =>
      rw [ofLookup_of_interval hinterval, checked, flaw?_given, isUrl_rpcUrl.2 hrpc,
        isUrl_sequencerUrl.2 hsequencer, if_pos ((longestInterval_lt_iff hinterval.lt).2 hlong),
        toString_ofNat hinterval.lt]
      rfl
  | accepted hinterval hrpc hsequencer hshort hburst =>
      have hfits := mt (longestInterval_lt_iff hinterval.lt).1 (Nat.not_lt.2 hshort)
      obtain rfl := Bool.eq_iff_iff.2 (burstMode_iff.trans hburst.symm)
      rw [ofLookup_of_interval hinterval, checked, flaw?_given, isUrl_rpcUrl.2 hrpc,
        isUrl_sequencerUrl.2 hsequencer, if_neg hfits]
      rfl

/-- There is a verdict on all named values. -/
theorem exists_verdict (lookup : String → Option String) : ∃ result, Verdict lookup result := by
  rcases unreadable_or_interval lookup with ⟨raw, hraw, hnumber⟩ | ⟨number, hinterval⟩
  · exact ⟨_, .unreadable hraw hnumber⟩
  -- From here on, the cases come in the order of the checks.
  by_cases hrpc : Addressed lookup "RPC_URL"
  · by_cases hsequencer : Addressed lookup "SEQUENCER_URL"
    · by_cases hlong : 86400 < number
      · exact ⟨_, .tooLong hinterval hrpc hsequencer hlong⟩
      · exact ⟨_, .accepted hinterval hrpc hsequencer (Nat.le_of_not_lt hlong) burstMode_iff⟩
    · rcases not_addressed hsequencer with ⟨url, hurl, haddress⟩
      exact ⟨_, .sequencerUrl hinterval hrpc hurl haddress⟩
  · rcases not_addressed hrpc with ⟨url, hurl, haddress⟩
    exact ⟨_, .rpcUrl hinterval hurl haddress⟩

theorem verdict_iff {result : Except Error Config} :
    ofLookup lookup = result ↔ Verdict lookup result := by
  constructor
  · rintro rfl
    rcases exists_verdict lookup with ⟨result, hverdict⟩
    rwa [hverdict.ofLookup_eq]
  · exact Verdict.ofLookup_eq

/-- The names that are looked up. -/
def names : List String :=
  ["RPC_URL", "SEQUENCER_URL", "TX_INTERVAL", "ENABLE_BURST_MODE", "ACCOUNT_KEYS"]

theorem ofLookup_congr {other : String → Option String}
    (h : ∀ name ∈ names, other name = lookup name) : ofLookup other = ofLookup lookup := by
  have hinterval := h "TX_INTERVAL" (by decide)
  have hrpc := h "RPC_URL" (by decide)
  have hsequencer := h "SEQUENCER_URL" (by decide)
  have hburst := h "ENABLE_BURST_MODE" (by decide)
  have hkeys := h "ACCOUNT_KEYS" (by decide)
  unfold ofLookup
  rw [hinterval, hrpc, hsequencer, hburst, hkeys]

/-- Settings that were returned hold the values that were given, and have no flaw. -/
theorem exists_interval {config : Config} (h : ofLookup lookup = .ok config) :
    ∃ number, Interval lookup number ∧ config = given lookup (.ofSecs (.ofNat number)) ∧
      config.flaw? = none := by
  rcases unreadable_or_interval lookup with ⟨raw, hraw, hnumber⟩ | ⟨number, hinterval⟩
  · rw [ofLookup_of_unreadable hraw hnumber] at h
    cases h
  · rw [ofLookup_of_interval hinterval, checked] at h
    split at h
    · cases h
    · rename_i hflaw
      cases h
      exact ⟨number, hinterval, rfl, hflaw⟩

theorem validate_of_ofLookup {config : Config} (h : ofLookup lookup = .ok config) :
    validate config = .ok () := by
  rcases exists_interval h with ⟨number, -, -, hflaw⟩
  rw [validate, hflaw]

/-- Named values are decided by the first flaw in them: a number of seconds that cannot be read, an
address that is none, the validator's before the sequencer's, or a number of seconds above a day. If
there is none, they are accepted, and what was not given is as it is by default. Nothing else is
looked at, and what is accepted has passed the check of all settings. -/
theorem ofLookup_decides (lookup : String → Option String) :
    (∀ result, ofLookup lookup = result ↔ Verdict lookup result) ∧
    (∀ config, ofLookup lookup = .ok config → validate config = .ok ()) ∧
    ∀ other, (∀ name ∈ names, other name = lookup name) → ofLookup other = ofLookup lookup :=
  ⟨fun _ => verdict_iff, fun _ => validate_of_ofLookup, fun _ => ofLookup_congr⟩

/-- A day is not too long, whatever stands before its digits and around them, and a name that is not
looked up makes no difference. -/
theorem ofLookup_decides_day :
    let lookup := fun name =>
      if name = "TX_INTERVAL" then some "\u2003+086400\u00a0"
      else if name = "ENABLE_BURST_MODE" then some " tRUe\n" else none
    let other := fun name => if name = "RUST_LOG" then some "info" else lookup name
    ∃ config, ofLookup lookup = .ok config ∧ config.txInterval = .ofSecs 86400 ∧
      config.burstMode = true ∧ config.accountKeys = none ∧ validate config = .ok () ∧
      (∀ name ∈ names, other name = lookup name) ∧ ofLookup other = .ok config := by
  intro lookup other
  rcases ofLookup_decides lookup with ⟨hverdict, hvalid, hcongr⟩
  have hseconds : Seconds "\u2003+086400\u00a0" 86400 :=
    word64?_trimList_iff.1 (by decide : _ = some (86400 : UInt64))
  have hburst : true = true ↔ ∀ raw, lookup "ENABLE_BURST_MODE" = some raw → Affirms raw := by
    rw [← burstMode_iff]
    decide
  have haccepted := (hverdict _).2
    (.accepted (.given rfl hseconds) (by nofun) (by nofun) (Nat.le_refl _) hburst)
  have hother : ∀ name ∈ names, other name = lookup name := by decide
  exact ⟨_, haccepted, rfl, rfl, rfl, hvalid _ haccepted, hother,
    (hcongr other hother).trans haccepted⟩

end Config
end TxWorkload
