import TxWorkload.Proofs.Routine.Evaluation

/-!
# Adequacy — evaluation agrees with the steps of a routine

What a routine by itself evaluates to is what it comes to in some number of steps, with the same
deeds on the way; and what it comes to in any number of steps is what it evaluates to. There is one
way to go on only, so a wait that is answered lies on every way to the end, and one that never ends
lies on none.
-/

namespace TxWorkload
namespace Routine

variable {S : Signature} {α β : Type} {host : Host S} {w w₁ w' : World S}
  {deeds : List (Deed S)}

/-! ## Steps -/

namespace Solo

/-- A number of steps from one state to another, and the deeds on the way. -/
inductive Leads (host : Host S) : Nat → Solo S α → List (Deed S) → Solo S α → Prop
  | here (x : Solo S α) : Leads host 0 x [] x
  | more {n : Nat} {x y z : Solo S α} {deeds : List (Deed S)} (hs : x.step host = some y)
      (h : Leads host n y deeds z) :
      Leads host (n + 1) x (x.world.deeds x.strand.act? ++ deeds) z

namespace Leads

variable {n m : Nat} {x y z : Solo S α} {ds ds' : List (Deed S)}

theorem one (hs : x.step host = some y) : Leads host 1 x (x.world.deeds x.strand.act?) y := by
  have h := Leads.more hs (.here y)
  rwa [List.append_nil] at h

theorem trans (h : Leads host n x ds y) (h' : Leads host m y ds' z) :
    Leads host (n + m) x (ds ++ ds') z := by
  induction h with
  | here x => simpa using h'
  | more hs _ ih =>
      rw [Nat.add_right_comm, List.append_assoc]
      exact .more hs (ih h')

theorem run_eq (h : Leads host n x ds y) : run host n x = y ∧ trail host n x = ds := by
  induction h with
  | here x => exact ⟨rfl, rfl⟩
  | more hs _ ih =>
      rcases ih with ⟨hrun, htrail⟩
      simp only [run, trail, hs]
      exact ⟨hrun, by rw [htrail]⟩

/-- There is one way to go on only: a way to a last state passes through every state on it. -/
theorem split (h : Leads host n x ds z) (hz : z.step host = none) (h' : Leads host m x ds' y) :
    ∃ k rest, n = m + k ∧ ds = ds' ++ rest ∧ Leads host k y rest z := by
  induction h' generalizing n ds with
  | here x => exact ⟨n, ds, (Nat.zero_add n).symm, rfl, h⟩
  | more hs _ ih =>
      cases h with
      | here => cases hs.symm.trans hz
      | more hs' h =>
          cases hs.symm.trans hs'
          rcases ih h with ⟨k, rest, rfl, rfl, hk⟩
          exact ⟨k, rest, by omega, (List.append_assoc _ _ _).symm, hk⟩

end Leads

/-- A run leads to where it is, in as many steps as there were. -/
theorem exists_leads (host : Host S) (n : Nat) (x : Solo S α) :
    ∃ m, m ≤ n ∧ Leads host m x (trail host n x) (run host n x) := by
  induction n generalizing x with
  | zero => exact ⟨0, Nat.le_refl 0, .here x⟩
  | succ n ih =>
      simp only [run, trail]
      cases hs : x.step host with
      | none => exact ⟨0, Nat.zero_le _, .here x⟩
      | some y =>
          rcases ih y with ⟨m, hm, h⟩
          exact ⟨m + 1, Nat.succ_le_succ hm, .more hs h⟩

/-! ## Waits in steps -/

section

variable {what : Wait S β} {answer : Option β}

/-- A blocked routine lets time pass until its wait has ended. -/
theorem step_blocked {pending : World.Pending β} {next : β → Routine S α}
    (h : w.hasEnded pending = false) :
    step host ⟨w, .blocked pending next⟩ =
      (w.nextMoment host pending.due.toList).map fun m =>
        ⟨w.passTo host m, .blocked pending next⟩ := by
  cases hdue : pending.due <;> simp [step, Strand.advance, h, Strand.isOver, Strand.due?, hdue]

theorem step_answered {pending : World.Pending β} {next : β → Routine S α}
    (h : w.hasEnded pending = true) :
    step host ⟨w, .blocked pending next⟩ =
      some ⟨w.deliver pending, .active (next pending.answer)⟩ := by
  simp [step, Strand.advance, h]

/-- A wait that does not end at once blocks the routine. -/
theorem step_waiting {next : β → Routine S α}
    (h : (w.begin host what).1.hasEnded (w.begin host what).2 = false) :
    step host ⟨w, .active (.wait what next)⟩ =
      some ⟨(w.begin host what).1, .blocked (w.begin host what).2 next⟩ := by
  simp [step, Strand.advance, h]

/-- A wait whose end is due is answered. -/
theorem leads_blocked {pending : World.Pending β} (next : β → Routine S α) {d : Nat}
    (hdue : pending.due = some d) (h : w.now < d) :
    ∃ n, Leads host n ⟨w, .blocked pending next⟩ []
      ⟨(w.passTo host d).deliver pending, .active (next pending.answer)⟩ := by
  have hpass : ∀ {w : World S} {m : Nat}, w.now < d → w.nextMoment host [d] = some m →
      step host ⟨w, .blocked pending next⟩ = some ⟨w.passTo host m, .blocked pending next⟩ := by
    intro w m hlt hm
    have hended : w.hasEnded pending = false := by
      simpa [World.hasEnded, hdue] using hlt
    rw [step_blocked hended, hdue, Option.toList_some, hm]
    rfl
  have hended : (w.passTo host d).hasEnded pending = true := by
    simp [World.hasEnded, hdue, World.passTo]
  cases hm : w.nextMoment host [d] with
  | none => simp [World.nextMoment] at hm
  | some m =>
      rcases Nat.eq_or_lt_of_le (World.nextMoment_le hm (List.mem_singleton_self d)) with rfl | hlt
      · exact ⟨2, .more (hpass h hm) (.more (step_answered hended) (.here _))⟩
      · -- The cancellation comes first, and then time passes to the end of the wait.
        have hcancelled : (w.passTo host m).cancelled = true :=
          World.cancelled_of_nextMoment hm fun hmem => Nat.ne_of_lt hlt (List.mem_singleton.1 hmem)
        have hnext : (w.passTo host m).nextMoment host [d] = some d :=
          World.nextMoment_of_cancelled hcancelled [d]
        have hpassed : step host ⟨w.passTo host m, .blocked pending next⟩ =
            some ⟨w.passTo host d, .blocked pending next⟩ := by
          rw [hpass hlt hnext, World.passTo_passTo (Nat.le_of_lt hlt)]
        exact ⟨3, .more (hpass h hm) (.more hpassed (.more (step_answered hended) (.here _)))⟩

theorem leads_awaited (next : β → Routine S α) (h : Awaited host w what w₁) :
    ∃ n, Leads host (n + 1) ⟨w, .active (.wait what next)⟩ (w.deeds (some what.act))
      ⟨w₁, .active (next (w.begin host what).2.answer)⟩ := by
  cases h with
  | atOnce hdue h =>
      have hended : (w.begin host what).1.hasEnded (w.begin host what).2 = true := by
        simpa [World.hasEnded, hdue] using h
      exact ⟨0, .one (by simp [step, Strand.advance, hended])⟩
  | @later d hdue h =>
      have hended : (w.begin host what).1.hasEnded (w.begin host what).2 = false := by
        simpa [World.hasEnded, hdue] using h
      have hbegun : (w.begin host what).1.now < d := by simpa using h
      rcases leads_blocked next hdue hbegun with ⟨n, hn⟩
      have hleads := Leads.more (step_waiting hended) hn
      rw [List.append_nil] at hleads
      exact ⟨n, hleads⟩

theorem leads_raced (next : Option β → Routine S α) (h : Raced host w what answer w₁) :
    ∃ n, Leads host (n + 1) ⟨w, .active (.race what next)⟩ (w.deeds (some what.act))
      ⟨w₁, .active (next answer)⟩ := by
  -- While a race goes on there are no deeds, so those of its beginning are all.
  have hbegins : ∀ {n : Nat} {x y : Solo S α},
      step host ⟨w, .active (.race what next)⟩ = some x → Leads host n x [] y →
      ∃ n, Leads host (n + 1) ⟨w, .active (.race what next)⟩ (w.deeds (some what.act)) y := by
    intro n x y hs h
    have hleads := Leads.more hs h
    rw [List.append_nil] at hleads
    exact ⟨n, hleads⟩
  cases h with
  | atOnce hdue h =>
      have hended : (w.begin host what).1.hasEnded (w.begin host what).2 = true := by
        simpa [World.hasEnded, hdue] using h
      exact hbegins (by simp [step, Strand.advance, hended]) (.here _)
  | inTime hw hdue h hcancel =>
      have hlate : ∀ d, (w.begin host what).2.due = some d → w.now < d := by
        rw [hdue]
        rintro d ⟨⟩
        exact h
      exact hbegins (step_begin hw hlate)
        (.more (step_inTime hdue h hcancel) (.more (step_won hdue (Nat.le_refl _)) (.here _)))
  | tooLate hw h =>
      have hended : (w.begin host what).1.hasEnded (w.begin host what).2 = false := by
        unfold World.hasEnded
        cases hdue : (w.begin host what).2.due with
        | none => rfl
        | some d => simpa using h d hdue
      have hlost : step host ⟨(w.begin host what).1, .contested (w.begin host what).2 next⟩ =
          some ⟨(w.begin host what).1, .active (next none)⟩ := by
        simp [step, Strand.advance, hw]
      exact hbegins (by simp [step, Strand.advance, hended]) (.more hlost (.here _))
  | cutOff hw hcancel h =>
      exact hbegins (step_begin hw fun d hd => (h d hd).1)
        (.more (step_cutOff hcancel h) (.more step_lost (.here _)))

/-- A routine that waits for what never comes, in a run that nobody cancels. -/
structure Stuck (host : Host S) (x : Solo S α) : Prop where
  last : x.step host = none
  waits : x.strand.isWaiting = true
  active : x.world.cancelled = false
  forever : host.cancelAt = none

theorem Stuck.result?_eq_none {x : Solo S α} (h : Stuck host x) : x.strand.result? = none := by
  have hwaits := h.waits
  rcases x with ⟨w, s⟩
  cases s with
  | active p => cases hwaits
  | blocked pending next => rfl
  | contested pending next => rfl
  | starved => rfl
  | aborted cause => rfl

/-- A wait that races against cancellation comes to an end, or the routine never goes on. -/
theorem raced_or_stuck (host : Host S) (w : World S) (what : Wait S β)
    (next : Option β → Routine S α) :
    (∃ answer w₁, Raced host w what answer w₁) ∨
      ∃ n ds y, Leads host n ⟨w, .active (.race what next)⟩ ds y ∧ Stuck host y := by
  by_cases hended : ∃ d, (w.begin host what).2.due = some d ∧ d ≤ w.now
  · rcases hended with ⟨d, hdue, hd⟩
    exact .inl ⟨_, _, .atOnce hdue hd⟩
  · have hlate : ∀ d, (w.begin host what).2.due = some d → w.now < d := by
      intro d hdue
      apply Nat.lt_of_not_le
      intro hd
      exact hended ⟨d, hdue, hd⟩
    cases hw : w.cancelled with
    | true => exact .inl ⟨_, _, .tooLate hw hlate⟩
    | false =>
        rcases exists_fate host w.now (w.begin host what).2.due with
          ⟨_, d, hdue, -, hcancel⟩ | ⟨_, t, hcancel, -, hdue⟩ | hstalled
        · exact .inl ⟨_, _, .inTime hw hdue (hlate d hdue) (hcancel (hlate d hdue))⟩
        · exact .inl ⟨_, _, .cutOff hw hcancel hdue⟩
        · refine .inr ⟨1, _, _, .one (step_begin hw hlate), ?_, rfl, rfl, hstalled.2⟩
          rw [step_racing hlate, hstalled.1, hstalled.2]
          rfl

theorem awaited_or_stuck (host : Host S) (w : World S) (what : Wait S β)
    (next : β → Routine S α) :
    (∃ w₁, Awaited host w what w₁) ∨
      ∃ n ds y, Leads host n ⟨w, .active (.wait what next)⟩ ds y ∧ y.step host = none ∧
        y.strand.result? = none := by
  cases hdue : (w.begin host what).2.due with
  | some d =>
      by_cases hd : d ≤ w.now
      · exact .inl ⟨_, .atOnce hdue hd⟩
      · exact .inl ⟨_, .later hdue (Nat.lt_of_not_le hd)⟩
  | none =>
      -- The routine is blocked for good; it may be cancelled meanwhile, but does not find out.
      have hended : ∀ w' : World S, w'.hasEnded (w.begin host what).2 = false := by
        intro w'
        simp [World.hasEnded, hdue]
      have hpass : ∀ w' : World S, step host ⟨w', .blocked (w.begin host what).2 next⟩ =
          (w'.nextMoment host []).map fun m =>
            ⟨w'.passTo host m, .blocked (w.begin host what).2 next⟩ := by
        intro w'
        rw [step_blocked (hended w'), hdue]
        rfl
      right
      cases hm : (w.begin host what).1.nextMoment host [] with
      | none =>
          refine ⟨1, _, _, .one (step_waiting (hended _)), ?_, rfl⟩
          rw [hpass, hm]
          rfl
      | some m =>
          have hs := hpass (w.begin host what).1
          rw [hm] at hs
          refine ⟨2, _, _, .more (step_waiting (hended _)) (.one hs), ?_, rfl⟩
          have hcancelled := World.cancelled_of_nextMoment hm List.not_mem_nil
          rw [hpass, World.nextMoment_of_cancelled hcancelled]
          rfl

end

/-! ## Evaluation and steps -/

/-- A state after which there is none, and which is not the end of the routine, is not on the way to
the end. -/
theorem Leads.not_stuck {n m : Nat} {x y z : Solo S α} {ds ds' : List (Deed S)} {a : α}
    (h : Leads host n x ds z) (hz : z.strand = .active (.done a)) (h' : Leads host m x ds' y)
    (hy : y.step host = none) (hresult : y.strand.result? = none) : False := by
  have hlast : z.step host = none := by
    rcases z with ⟨w, s⟩
    obtain rfl : s = .active (.done a) := hz
    rfl
  rcases h.split hlast h' with ⟨k, rest, -, -, hk⟩
  cases hk with
  | here =>
      rw [hz] at hresult
      cases hresult
  | more hs _ => cases hs.symm.trans hy

/-- A routine that evaluates to a result leads on to what follows it. -/
theorem leads_of_evaluates {p : Routine S α} {a : α} (h : p.Evaluates host w deeds a w')
    (k : α → Routine S β) :
    ∃ n, Leads host n ⟨w, .active (p.andThen k)⟩ deeds ⟨w', .active (k a)⟩ := by
  induction p generalizing w deeds w' with
  | done a =>
      rcases h with ⟨rfl, rfl, rfl⟩
      exact ⟨0, .here _⟩
  | perform e next ih =>
      rcases h with ⟨b, w₁, rest, he, rfl, h⟩
      rcases ih b h k with ⟨n, hn⟩
      exact ⟨n + 1, .more (step_perform he) hn⟩
  | wait what next ih =>
      rcases h with ⟨w₁, rest, hw, rfl, h⟩
      rcases leads_awaited (fun b => (next b).andThen k) hw with ⟨m, hm⟩
      rcases ih _ h k with ⟨n, hn⟩
      exact ⟨_, hm.trans hn⟩
  | race what next ih =>
      rcases h with ⟨answer, w₁, rest, hw, rfl, h⟩
      rcases leads_raced (fun b => (next b).andThen k) hw with ⟨m, hm⟩
      rcases ih _ h k with ⟨n, hn⟩
      exact ⟨_, hm.trans hn⟩
  | loop s body next ihb ih =>
      rcases h with ⟨b, w₁, turns, rest, hturns, rfl, h⟩
      have hloop : ∃ n, Leads host n ⟨w, .active ((Routine.loop s body next).andThen k)⟩ turns
          ⟨w₁, .active ((next b).andThen k)⟩ := by
        clear h
        induction hturns with
        | last hturn =>
            rcases ihb _ hturn _ with ⟨n, hn⟩
            exact ⟨n + 1, .more rfl hn⟩
        | more hturn _ ihturns =>
            rcases ihb _ hturn _ with ⟨n, hn⟩
            rcases ihturns with ⟨m, hm⟩
            exact ⟨_, (Leads.more rfl hn).trans hm⟩
      rcases hloop with ⟨m, hm⟩
      rcases ih b h k with ⟨n, hn⟩
      exact ⟨_, hm.trans hn⟩

/-- Whether a part of a routine comes to a result before what follows it goes on to the end, in no
more steps. -/
def ComesFirst (host : Host S) (part : World S → List (Deed S) → α → World S → Prop)
    (k : α → Routine S β) (n : Nat) (w : World S) (deeds : List (Deed S)) (b : β)
    (w' : World S) : Prop :=
  ∃ a w₁ m before after, m ≤ n ∧ part w before a w₁ ∧ deeds = before ++ after ∧
    Leads host m ⟨w₁, .active (k a)⟩ after ⟨w', .active (.done b)⟩

/-- If every turn of a loop comes first on the way to an end, so does the chain of all of them. -/
theorem turns_of_leads {σ γ : Type} (s : σ) {body : σ → Routine S (σ ⊕ γ)}
    {next : γ → Routine S α} {k : α → Routine S β} {n : Nat} {b : β}
    (hbody : ∀ s {k : σ ⊕ γ → Routine S β} {n : Nat} {w : World S} {deeds : List (Deed S)},
      Leads host n ⟨w, .active ((body s).andThen k)⟩ deeds ⟨w', .active (.done b)⟩ →
        ComesFirst host ((body s).Evaluates host) k n w deeds b w')
    (h : Leads host n ⟨w, .active ((Routine.loop s body next).andThen k)⟩ deeds
      ⟨w', .active (.done b)⟩) :
    ComesFirst host
      (Turns (fun s w deeds turn w' => (body s).Evaluates host w deeds turn w') s)
      (fun c => (next c).andThen k) n w deeds b w' := by
  -- The induction is on the number of steps: each turn takes at least the one that begins it.
  induction n using Nat.strongRecOn generalizing s w deeds with
  | _ n ih =>
      cases h with
      | @more n' _ _ _ ds hs h =>
          cases hs
          rcases hbody s h with ⟨turn, w₁, m, before, after, hm, hturn, rfl, hrest⟩
          cases turn with
          | inr c => exact ⟨c, w₁, m, before, after, Nat.le_succ_of_le hm, .last hturn, rfl, hrest⟩
          | inl s' =>
              rcases ih m (Nat.lt_succ_of_le hm) s' hrest with
                ⟨c, w₂, m', turns, rest, hm', hturns, rfl, hlast⟩
              have hdeeds : before ++ (turns ++ rest) = before ++ turns ++ rest :=
                (List.append_assoc _ _ _).symm
              exact ⟨c, w₂, m', _, rest, by omega, .more hturn hturns, hdeeds, hlast⟩

/-- On the way to an end, a routine evaluates to a result before what follows it goes on. -/
theorem evaluates_of_leads {p : Routine S α} {k : α → Routine S β} {n : Nat} {b : β}
    (h : Leads host n ⟨w, .active (p.andThen k)⟩ deeds ⟨w', .active (.done b)⟩) :
    ComesFirst host (p.Evaluates host) k n w deeds b w' := by
  induction p generalizing n w deeds with
  | done a => exact ⟨a, w, n, [], deeds, Nat.le_refl n, ⟨rfl, rfl, rfl⟩, rfl, h⟩
  | perform e next ih =>
      cases h with
      | more hs h =>
          cases he : w.perform host w.cancelled e with
          | value c w₁ =>
              cases (step_perform he).symm.trans hs
              rcases ih c h with ⟨a, w₂, m, before, after, hm, hp, rfl, hk⟩
              exact ⟨a, w₂, m, _, after, Nat.le_succ_of_le hm, ⟨c, w₁, before, he, rfl, hp⟩,
                (List.append_assoc _ _ _).symm, hk⟩
          | starved =>
              have hstarved : step host ⟨w, .active ((Routine.perform e next).andThen k)⟩ =
                  some ⟨w, .starved⟩ := by
                simp only [andThen, step, Strand.advance, he]
              cases hstarved.symm.trans hs
              cases h with
              | more hs _ => cases hs
          | aborted cause =>
              have haborted : step host ⟨w, .active ((Routine.perform e next).andThen k)⟩ =
                  some ⟨w, .aborted cause⟩ := by
                simp only [andThen, step, Strand.advance, he]
              cases haborted.symm.trans hs
              cases h with
              | more hs _ => cases hs
  | wait what next ih =>
      rcases awaited_or_stuck host w what fun b => (next b).andThen k with
        ⟨w₁, hw⟩ | ⟨m, ds, y, hy, hstep, hresult⟩
      · rcases leads_awaited (fun b => (next b).andThen k) hw with ⟨m, hm⟩
        rcases h.split rfl hm with ⟨n', rest, rfl, rfl, hrest⟩
        rcases ih _ hrest with ⟨a, w₂, m', before, after, hm', hp, rfl, hk⟩
        exact ⟨a, w₂, m', _, after, by omega, ⟨w₁, before, hw, rfl, hp⟩,
          (List.append_assoc _ _ _).symm, hk⟩
      · exact (h.not_stuck rfl hy hstep hresult).elim
  | race what next ih =>
      rcases raced_or_stuck host w what fun b => (next b).andThen k with
        ⟨answer, w₁, hw⟩ | ⟨m, ds, y, hy, hstuck⟩
      · rcases leads_raced (fun b => (next b).andThen k) hw with ⟨m, hm⟩
        rcases h.split rfl hm with ⟨n', rest, rfl, rfl, hrest⟩
        rcases ih _ hrest with ⟨a, w₂, m', before, after, hm', hp, rfl, hk⟩
        exact ⟨a, w₂, m', _, after, by omega, ⟨answer, w₁, before, hw, rfl, hp⟩,
          (List.append_assoc _ _ _).symm, hk⟩
      · exact (h.not_stuck rfl hy hstuck.last hstuck.result?_eq_none).elim
  | loop s body next ihb ih =>
      rcases turns_of_leads s (fun s => ihb s) h with
        ⟨c, w₁, m, turns, rest, hm, hturns, rfl, hrest⟩
      rcases ih c hrest with ⟨a, w₂, m', before, after, hm', hp, rfl, hk⟩
      exact ⟨a, w₂, m', _, after, by omega, ⟨c, w₁, turns, before, hturns, rfl, hp⟩,
        (List.append_assoc _ _ _).symm, hk⟩

/-- What a routine evaluates to is what it comes to in some number of steps. -/
theorem exists_run_of_evaluates {p : Routine S α} {a : α} (h : p.Evaluates host w deeds a w') :
    ∃ n, run host n (start w p) = ⟨w', .active (.done a)⟩ ∧ trail host n (start w p) = deeds := by
  rcases leads_of_evaluates h .done with ⟨n, hn⟩
  rw [andThen_done] at hn
  exact ⟨n, hn.run_eq⟩

theorem eq_of_result {x : Solo S α} {a : α} (h : x.strand.result? = some a) :
    x = ⟨x.world, .active (.done a)⟩ := by
  rcases x with ⟨w, s⟩
  unfold Strand.result? at h
  split at h
  · rename_i hs
    cases h
    exact congrArg (Solo.mk w) hs
  · cases h

/-- What a routine comes to in a number of steps is what it evaluates to. -/
theorem evaluates_of_run {p : Routine S α} {a : α} {n : Nat}
    (h : (run host n (start w p)).strand.result? = some a) :
    p.Evaluates host w (trail host n (start w p)) a (run host n (start w p)).world := by
  rcases exists_leads host n (start w p) with ⟨m, -, hm⟩
  rw [eq_of_result h] at hm
  have hleads : Leads host m ⟨w, .active (p.andThen .done)⟩ (trail host n (start w p))
      ⟨(run host n (start w p)).world, .active (.done a)⟩ := by
    rw [andThen_done]
    exact hm
  rcases evaluates_of_leads hleads with ⟨b, w₁, m', before, after, -, hp, hdeeds, hk⟩
  rw [hdeeds]
  cases hk with
  | here => rwa [List.append_nil]
  | more hs _ => cases hs

end Solo
end Routine
end TxWorkload
