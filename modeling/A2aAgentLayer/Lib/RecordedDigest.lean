import Mathlib.Data.List.Nodup

/-!
# Recorded digests

A stand-in for a hash function that has the recorded values at some texts, and elsewhere keeps the
text.  It is injective as soon as the recorded values differ, as one assumes of the hash function
itself.
-/

namespace A2aAgentLayer.Lib.RecordedDigest

inductive Recorded (Symbol : Type) where
  | digest (bytes : List UInt8)
  | text (text : List Symbol)
  deriving DecidableEq

instance {Symbol : Type} : Inhabited (Recorded Symbol) := ⟨.digest []⟩

variable {Symbol : Type} [DecidableEq Symbol]

def digestOf (values : List (List Symbol × List UInt8)) (text : List Symbol) : Recorded Symbol :=
  match values.lookup text with
  | some bytes => .digest bytes
  | none => .text text

theorem mem_of_digestOf {values : List (List Symbol × List UInt8)} {text : List Symbol}
    {bytes : List UInt8} (h : digestOf values text = .digest bytes) : (text, bytes) ∈ values := by
  rw [digestOf] at h
  split at h
  · next found hfound =>
      obtain rfl := Recorded.digest.inj h
      obtain ⟨before, after, rfl, -⟩ := List.lookup_eq_some_iff.mp hfound
      exact List.mem_append_right before (List.mem_cons_self ..)
  · cases h

theorem eq_of_digestOf {values : List (List Symbol × List UInt8)} {text other : List Symbol}
    (h : digestOf values text = .text other) : text = other := by
  rw [digestOf] at h
  split at h
  · cases h
  · exact Recorded.text.inj h

/-- **Texts with one digest are equal.** -/
theorem digestOf_injective {values : List (List Symbol × List UInt8)}
    (hnd : (values.map Prod.snd).Nodup) : Function.Injective (digestOf values) := by
  intro a b h
  cases ha : digestOf values a with
  | digest bytes =>
      have hmem := mem_of_digestOf (h.symm.trans ha)
      exact congrArg Prod.fst (List.inj_on_of_nodup_map hnd (mem_of_digestOf ha) hmem rfl)
  | text text => rw [eq_of_digestOf ha, eq_of_digestOf (h.symm.trans ha)]

end A2aAgentLayer.Lib.RecordedDigest
