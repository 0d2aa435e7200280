import LiveTemplate.Selector.Query
import Mathlib.Data.List.Forall2
import Mathlib.Data.List.NodupEquivFin

/-!
# Matching without backtracking

A node matches a selector if the subject accepts it and the other compounds can be placed on its
ancestors, in order and each on one of its own.  The scan outwards places a compound on the first
ancestor that accepts it and never takes that back.  It misses nothing: in any other placement the
compounds further out stand further out still, so they can stay where they are.
-/

namespace LiveTemplate

variable {ι : Type}

namespace Selector

/-- Compounds can be met on a way outwards if each accepts a node of its own there, in order. -/
def Met (compounds : List Compound) (path : List (Tree ι)) : Prop :=
  List.SublistForall₂ (fun compound node => compound.accepts node = true) compounds path

/-- The compounds behind the first one can be met without the node where the first one is. -/
theorem Met.tail {compound : Compound} {others : List Compound} {path : List (Tree ι)}
    (h : Met (compound :: others) path) : Met others path := by
  generalize hall : compound :: others = all at h
  induction h with
  | nil => cases hall
  | cons _ hrest =>
      obtain ⟨-, rfl⟩ := List.cons.inj hall
      exact .cons_right hrest
  | cons_right _ ih => exact .cons_right (ih hall)

/-- A compound that accepts the first node may as well be placed there: whatever placement there is,
the others are placed behind this node in it. -/
theorem met_cons_of_accepts {compound : Compound} {node : Tree ι}
    (haccepts : compound.accepts node = true) (others : List Compound) (path : List (Tree ι)) :
    Met (compound :: others) (node :: path) ↔ Met others path := by
  constructor
  · intro h
    cases h with
    | cons _ hrest => exact hrest
    | cons_right hrest => exact Met.tail hrest
  · exact .cons haccepts

/-- A compound that does not accept the first node is placed behind it. -/
theorem met_cons_of_rejects {compound : Compound} {node : Tree ι}
    (hrejects : ¬compound.accepts node = true) (others : List Compound) (path : List (Tree ι)) :
    Met (compound :: others) (node :: path) ↔ Met (compound :: others) path := by
  constructor
  · intro h
    cases h with
    | cons haccepts => exact absurd haccepts hrejects
    | cons_right hrest => exact hrest
  · exact .cons_right

/-- The scan finds a placement if there is one.  Induction on the way, one node at each step. -/
theorem metAlong_iff (compounds : List Compound) (path : List (Tree ι)) :
    metAlong compounds path = true ↔ Met compounds path := by
  induction path generalizing compounds with
  | nil =>
      cases compounds with
      | nil => exact iff_of_true rfl .nil
      | cons compound others => exact iff_of_false (by simp [metAlong]) nofun
  | cons node path ih =>
      cases compounds with
      | nil => exact iff_of_true (by simp [metAlong]) .nil
      | cons compound others =>
          rw [metAlong]
          split
          · next haccepts => rw [ih, met_cons_of_accepts haccepts]
          · next hrejects => rw [ih, met_cons_of_rejects hrejects]

/-- The same from the other end. -/
theorem met_reverse (compounds : List Compound) (path : List (Tree ι)) :
    Met compounds.reverse path.reverse ↔ Met compounds path := by
  have hreverse {cs : List Compound} {ns : List (Tree ι)} (h : Met cs ns) :
      Met cs.reverse ns.reverse := by
    obtain ⟨places, haccept, hsublist⟩ := List.sublistForall₂_iff.1 h
    exact List.sublistForall₂_iff.2
      ⟨places.reverse, List.forall₂_reverse_iff.2 haccept, hsublist.reverse⟩
  exact ⟨fun h => by simpa using hreverse h, hreverse⟩

/-- A placement names the position of the ancestor for each compound, and the positions rise. -/
theorem met_iff_positions (compounds : List Compound) (path : List (Tree ι)) :
    Met compounds path ↔
      ∃ positions : Fin compounds.length → Fin path.length, StrictMono positions ∧
        ∀ j, (compounds.get j).accepts (path.get (positions j)) = true := by
  constructor
  · intro h
    obtain ⟨places, haccept, hsublist⟩ := List.sublistForall₂_iff.1 h
    obtain ⟨hlength, haccept⟩ := List.forall₂_iff_get.1 haccept
    obtain ⟨position, hposition⟩ :=
      List.sublist_iff_exists_fin_orderEmbedding_get_eq.1 hsublist
    refine ⟨fun j => position (j.cast hlength), fun i j hij => ?_, fun j => ?_⟩
    · exact position.strictMono hij
    · rw [← hposition]
      exact haccept j.val j.isLt (hlength ▸ j.isLt)
  · rintro ⟨positions, hrise, haccept⟩
    -- The nodes at the positions, in the order of the compounds.
    let places : List (Tree ι) := List.ofFn fun j => path.get (positions j)
    have hlength : places.length = compounds.length := List.length_ofFn
    have hplaces (j : Fin places.length) :
        places.get j = path.get (positions (j.cast hlength)) := List.get_ofFn _ j
    refine List.sublistForall₂_iff.2 ⟨places, List.forall₂_iff_get.2 ⟨hlength.symm, ?_⟩, ?_⟩
    · intro j hj hj'
      rw [hplaces]
      exact haccept ⟨j, hj⟩
    · refine List.sublist_iff_exists_fin_orderEmbedding_get_eq.2
        ⟨OrderEmbedding.ofStrictMono (fun j => positions (j.cast hlength)) ?_, hplaces⟩
      exact fun i j hij => hrise hij

/-- A node matches a selector if and only if the last compound accepts it and there are ancestors,
at rising positions from the outermost one, that the other compounds accept in their order. -/
theorem accepts_iff_placement (selector : Selector) (node : Tree ι)
    (ancestors : List (Tree ι)) :
    selector.accepts node ancestors = true ↔
      ∃ others subject, selector.compounds = others ++ [subject] ∧
        subject.accepts node = true ∧
        ∃ positions : Fin others.length → Fin ancestors.length, StrictMono positions ∧
          ∀ j, (others.get j).accepts (ancestors.get (positions j)) = true := by
  simp only [← met_iff_positions]
  rw [accepts, acceptsOn]
  rcases List.eq_nil_or_concat selector.compounds with hnone | ⟨others, subject, hcompounds⟩
  · rw [hnone]
    exact iff_of_false Bool.false_ne_true (by simp)
  · rw [hcompounds, List.concat_eq_append, List.reverse_append, List.reverse_singleton,
      List.singleton_append]
    dsimp only
    rw [Bool.and_eq_true, metAlong_iff, met_reverse]
    constructor
    · exact fun h => ⟨others, subject, rfl, h⟩
    · rintro ⟨others', subject', hsame, h⟩
      obtain ⟨rfl, rfl⟩ := List.append_singleton_inj.1 hsame
      exact h

/-- An ancestor serves one of two compounds only, even if both accept it. -/
example :
    let item : Tree Unit := .element () "li" [] []
    let list : Tree Unit := .element () "ul" [] []
    let selector : Selector := ⟨[{ tag := some "ul" }, { tag := some "ul" }, { tag := some "li" }]⟩
    selector.accepts item [list] = false ∧ selector.accepts item [list, item, list] = true := by
  decide

end Selector

end LiveTemplate
