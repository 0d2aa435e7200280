import Mathlib.Data.List.Chain
import Mathlib.Data.List.Perm.Subperm
import Mathlib.Logic.Relation

/-!
# Graphs without cycles

Nodes name their children, and objects name the objects that are in their fields.  Where no way
leads back to where it starts, a way passes no place twice, so it is not longer than there are
places.  That stays so when a place comes to name others, as long as none of them leads to it.
-/

namespace LiveTemplate

open Relation

/-- No way leads from a place back to it. -/
def Acyclic (r : Nat → Nat → Prop) : Prop := ∀ place, ¬ TransGen r place place

namespace Acyclic

variable {r r' : Nat → Nat → Prop} {target : Nat}

theorem mono (h : Acyclic r) (hstep : ∀ a b, r' a b → r a b) : Acyclic r' :=
  fun place hcycle => h place (TransGen.mono hstep _ _ hcycle)

/-- Where a place has come to name others, a new way leads to that place before and goes on at one
of the others behind it.  Induction on the way: it cannot come to the place twice, since that is
not reached from the others. -/
theorem split_of_target
    (hstep : ∀ a b, r' a b → r a b ∨ a = target ∧ ¬ ReflTransGen r b target) {a b : Nat}
    (h : TransGen r' a b) :
    TransGen r a b ∨ ReflTransGen r a target ∧
      ∃ named, ¬ ReflTransGen r named target ∧ ReflTransGen r named b := by
  induction h with
  | single hab =>
      rcases hstep _ _ hab with hold | ⟨rfl, hnew⟩
      · exact .inl (.single hold)
      · exact .inr ⟨.refl, _, hnew, .refl⟩
  | tail _ hbc ih =>
      rcases hstep _ _ hbc with hold | ⟨rfl, hnew⟩
      · rcases ih with hway | ⟨hto, named, hnamed, hfrom⟩
        · exact .inl (hway.tail hold)
        · exact .inr ⟨hto, named, hnamed, hfrom.tail hold⟩
      · rcases ih with hway | ⟨_, named, hnamed, hfrom⟩
        · exact .inr ⟨hway.to_reflTransGen, _, hnew, .refl⟩
        · exact absurd hfrom hnamed

/-- A place may come to name others that do not lead to it. -/
theorem of_target (h : Acyclic r) (target : Nat)
    (hstep : ∀ a b, r' a b → r a b ∨ a = target ∧ ¬ ReflTransGen r b target) : Acyclic r' := by
  intro place hcycle
  rcases split_of_target hstep hcycle with hold | ⟨hto, named, hnamed, hfrom⟩
  · exact h place hold
  · exact hnamed (hfrom.trans hto)

/-- New places may name ones that are newer still.  Induction on the way: from an old place it goes
on as before, from a new one it only goes to newer ones. -/
theorem of_newer (h : Acyclic r) {size : Nat} (hold : ∀ a b, r a b → a < size ∧ b < size)
    (hstep : ∀ a b, r' a b → r a b ∨ size ≤ a ∧ a < b) : Acyclic r' := by
  have hway {a b : Nat} (hab : TransGen r' a b) : TransGen r a b ∨ size ≤ a ∧ a < b := by
    induction hab with
    | single hab => exact (hstep _ _ hab).imp_left .single
    | @tail b c hab hbc ih =>
        rcases ih with hbefore | ⟨hnew, hlt⟩ <;> rcases hstep _ _ hbc with hlast | ⟨hge, hlater⟩
        · exact .inl (hbefore.tail hlast)
        · obtain ⟨_, _, hlast⟩ := TransGen.tail'_iff.1 hbefore
          exact absurd (hold _ _ hlast).2 (Nat.not_lt.2 hge)
        · exact absurd (hold _ _ hlast).1
            (Nat.not_lt.2 (Nat.le_of_lt (Nat.lt_of_le_of_lt hnew hlt)))
        · exact .inr ⟨hnew, Nat.lt_trans hlt hlater⟩
  intro place hcycle
  rcases hway hcycle with hbefore | ⟨-, hlt⟩
  · exact h place hbefore
  · exact Nat.lt_irrefl place hlt

/-- A way is not longer than there are places. -/
theorem length_le (h : Acyclic r) {way : List Nat} (hway : way.IsChain r) {size : Nat}
    (hlt : ∀ place ∈ way, place < size) : way.length ≤ size := by
  have hpairwise : way.Pairwise (TransGen r) := (hway.imp fun _ _ => .single).pairwise
  have hnodup : way.Nodup := hpairwise.imp fun {a b} hab heq => by
    subst heq
    exact h a hab
  have hsubset : way ⊆ List.range size := fun place hplace => List.mem_range.2 (hlt place hplace)
  simpa using (List.subperm_of_subset hnodup hsubset).length_le

end Acyclic

end LiveTemplate
