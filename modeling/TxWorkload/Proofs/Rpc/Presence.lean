import TxWorkload.Rpc.Response

/-!
# Presence — a field of a response is absent, or it is not null

A reader of responses takes `null` for an absent field. So whatever was read from a text, none of
its fields holds `null`.
-/

namespace TxWorkload
namespace Rpc
namespace Response

open Json (Flaw Scan Bytes)

/-- Whether no field of a response holds `null`. -/
structure Present (r : Response) : Prop where
  id : r.id ≠ some .null
  result : r.result ≠ some .null
  error : r.error ≠ some .null

theorem present_empty : Present {} :=
  ⟨nofun, nofun, nofun⟩

/-- What comes of a scan in the end. -/
theorem ok_of_bind {α β : Type} {x : Except Flaw α} {f : α → Except Flaw β} {b : β}
    (h : (x >>= f) = .ok b) : ∃ a, x = .ok a ∧ f a = .ok b := by
  cases x with
  | error flaw => cases h
  | ok a => exact ⟨a, rfl, h⟩

theorem scanOptional_ne_null {depth : Nat} {s : Bytes} {r : Scan s (Option Json)}
    (h : scanOptional depth s = .ok r) : r.value ≠ some .null := by
  rcases ok_of_bind h with ⟨scan, -, hr⟩
  cases hr
  simp only [Scan.map]
  cases scan.value with
  | null => exact nofun
  | _ => exact nofun

section

variable {depth : Nat} {r : Response} {s : Bytes} {scan : Scan s Response}

theorem present_of_scanField {field : Field} (hr : r.Present)
    (h : scanField depth r field s = .ok scan) : scan.value.Present := by
  cases field with
  | version =>
      rcases ok_of_bind h with ⟨v, -, hscan⟩
      cases hscan
      exact ⟨hr.id, hr.result, hr.error⟩
  | id =>
      rcases ok_of_bind h with ⟨v, hv, hscan⟩
      cases hscan
      exact ⟨scanOptional_ne_null hv, hr.result, hr.error⟩
  | result =>
      rcases ok_of_bind h with ⟨v, hv, hscan⟩
      cases hscan
      exact ⟨hr.id, scanOptional_ne_null hv, hr.error⟩
  | error =>
      rcases ok_of_bind h with ⟨v, hv, hscan⟩
      cases hscan
      exact ⟨hr.id, hr.result, scanOptional_ne_null hv⟩

theorem present_of_scanMembers {seen : List Field} {first : Bool} (hr : r.Present)
    (h : scanMembers depth seen first r s = .ok scan) : scan.value.Present := by
  fun_induction scanMembers depth seen first r s
  case case1 | case5 => cases h
  case case2 =>
    cases h
    exact hr
  -- A member that is not the first one stands behind a comma; apart from that they are alike.
  case case3 member _ ihskip ihread | case4 member _ ihskip ihread =>
    rcases ok_of_bind h with ⟨key, -, h⟩
    simp only [member] at h
    split at h
    · rcases ok_of_bind h with ⟨mark, -, h⟩
      rcases ok_of_bind h with ⟨value, -, h⟩
      rcases ok_of_bind h with ⟨tail, htail, h⟩
      cases h
      exact ihskip key mark value hr htail
    · rename_i field _
      split at h
      · cases h
      · rcases ok_of_bind h with ⟨mark, -, h⟩
        rcases ok_of_bind h with ⟨value, hvalue, h⟩
        rcases ok_of_bind h with ⟨tail, htail, h⟩
        cases h
        exact ihread key field mark value (present_of_scanField hr hvalue) htail

theorem present_of_scanItems {fields : List Field} {first : Bool} (hr : r.Present)
    (h : scanItems depth first r fields s = .ok scan) : scan.value.Present := by
  fun_induction scanItems depth first r fields s
  case case1 | case3 | case6 => cases h
  case case2 =>
    cases h
    exact hr
  case case4 ih | case5 ih =>
    rcases ok_of_bind h with ⟨value, hvalue, h⟩
    rcases ok_of_bind h with ⟨tail, htail, h⟩
    cases h
    exact ih value (present_of_scanField hr hvalue) htail

end

/-- No field of a response that was read holds `null`. -/
theorem present_of_read {s : Bytes} {r : Response} (h : read s = .ok r) : r.Present := by
  unfold read at h
  split at h
  · cases h
  · split at h
    · rcases ok_of_bind h with ⟨depth, -, h⟩
      rcases ok_of_bind h with ⟨scan, hscan, h⟩
      rcases ok_of_bind h with ⟨_, -, h⟩
      cases h
      exact present_of_scanMembers present_empty hscan
    · split at h
      · rcases ok_of_bind h with ⟨depth, -, h⟩
        rcases ok_of_bind h with ⟨scan, hscan, h⟩
        rcases ok_of_bind h with ⟨_, -, h⟩
        cases h
        exact present_of_scanItems present_empty hscan
      · unfold misplaced at h
        split at h
        · cases h
        · rcases ok_of_bind h with ⟨_, -, h⟩
          cases h

end Response
end Rpc
end TxWorkload
