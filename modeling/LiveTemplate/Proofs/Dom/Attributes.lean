import LiveTemplate.Proofs.Dom.Keyed

/-!
# The attributes of a node

The attributes of an element are read off the calls that set and removed them, the oldest first.  A
name has the value of the last call about it, if that set it, and stands where it was set first
since it was last removed.  What an element starts with counts as set in the order in which it
stands.  A node that is no element ignores every call.
-/

namespace LiveTemplate

/-! ## Tables without an entry -/

namespace Table

variable {α : Type}

/-- Taking an entry out finds it and removes it. -/
theorem pop_eq (table : Table α) (key : String) :
    pop table key = (find? table key, erase table key) := by
  induction table with
  | nil => rfl
  | cons entry rest ih =>
      obtain ⟨k, v⟩ := entry
      rw [pop, find?, erase, ih]
      split <;> rfl

theorem find?_erase {table : Table α} (h : (keys table).Nodup) (key other : String) :
    find? (erase table key) other = if key = other then none else find? table other := by
  induction table with
  | nil => exact (ite_self _).symm
  | cons entry rest ih =>
      obtain ⟨k, v⟩ := entry
      obtain ⟨hnew, hrest⟩ := List.nodup_cons.1 h
      rw [erase]
      by_cases hk : k = key
      · subst hk
        rw [if_pos rfl, find?]
        by_cases hother : k = other
        · subst hother
          rw [if_pos rfl]
          cases hfound : find? rest k with
          | none => rfl
          | some value => exact absurd (mem_keys_iff.2 ⟨value, hfound⟩) hnew
        · rw [if_neg hother, if_neg hother]
      · rw [if_neg hk, find?, find?, ih hrest]
        by_cases hother : k = other
        · rw [if_pos hother, if_pos hother, if_neg fun hkey => hk (hother.trans hkey.symm)]
        · rw [if_neg hother, if_neg hother]

end Table

/-! ## Calls -/

/-- A call on the attributes of a node. -/
inductive AttributeCall
  | set (name value : String)
  | remove (name : String)
deriving DecidableEq, Repr

namespace AttributeCall

/-- The name that a call is about. -/
def name : AttributeCall → String
  | set name _ => name
  | remove name => name

/-- What a call does to attributes. -/
def change (attributes : Table String) : AttributeCall → Table String
  | set name value => Table.insert attributes name value
  | remove name => Table.erase attributes name

/-- The heap behind a call on a node. -/
def apply (node : NodeId) (dom : Dom) : AttributeCall → Dom
  | set name value => dom.setAttribute node name value
  | remove name => (dom.takeAttribute node name).2

/-- The calls that set attributes one after another. -/
def setting (attributes : Table String) : List AttributeCall :=
  attributes.map fun entry => set entry.1 entry.2

/-! ## What calls leave -/

variable {calls : List AttributeCall} {call : AttributeCall}

/-- The last call about a name sets it to a value. -/
def Holds (calls : List AttributeCall) (name value : String) : Prop :=
  ∃ earlier later, calls = earlier ++ set name value :: later ∧ ∀ call ∈ later, call.name ≠ name

/-- The call at a place sets a name that is not set at that time, and no later call removes it. -/
def ArrivesAt (calls : List AttributeCall) (name : String) (place : Nat) : Prop :=
  ∃ earlier value later, calls = earlier ++ set name value :: later ∧ earlier.length = place ∧
    (∀ held, ¬ Holds earlier name held) ∧ remove name ∉ later

/-- Two names are set, and the first one arrived earlier than the second one. -/
def Precedes (calls : List AttributeCall) (first second : String) : Prop :=
  ∃ i j, ArrivesAt calls first i ∧ ArrivesAt calls second j ∧ i < j

/-- A call splits a history that ends in another call in front of the end, or is the end. -/
theorem concat_eq_append_cons_iff {earlier later : List AttributeCall} {middle : AttributeCall} :
    calls ++ [call] = earlier ++ middle :: later ↔
      (earlier = calls ∧ middle = call ∧ later = []) ∨
        ∃ between, calls = earlier ++ middle :: between ∧ later = between ++ [call] := by
  constructor
  · intro h
    rcases List.eq_nil_or_concat later with rfl | ⟨between, last, rfl⟩
    · obtain ⟨hcalls, hcall⟩ := List.append_inj' h rfl
      exact .inl ⟨hcalls.symm, (List.singleton_inj.1 hcall).symm, rfl⟩
    · have hends : calls ++ [call] = (earlier ++ middle :: between) ++ [last] := by simpa using h
      obtain ⟨hcalls, hcall⟩ := List.append_inj' hends rfl
      exact .inr ⟨between, hcalls, by rw [List.singleton_inj.1 hcall, List.concat_eq_append]⟩
  · rintro (⟨rfl, rfl, rfl⟩ | ⟨between, rfl, rfl⟩)
    · rfl
    · rw [List.append_assoc, List.cons_append]

theorem not_holds_nil (name value : String) : ¬ Holds [] name value := by
  rintro ⟨earlier, later, hcalls, -⟩
  exact absurd hcalls (by simp)

theorem holds_concat {name value : String} :
    Holds (calls ++ [call]) name value ↔
      call = set name value ∨ call.name ≠ name ∧ Holds calls name value := by
  constructor
  · rintro ⟨earlier, later, hcalls, hlater⟩
    rcases concat_eq_append_cons_iff.1 hcalls with ⟨rfl, hcall, rfl⟩ | ⟨between, hbefore, rfl⟩
    · exact .inl hcall.symm
    · exact .inr ⟨hlater call (by simp), earlier, between, hbefore,
        fun other hother => hlater other (List.mem_append_left _ hother)⟩
  · rintro (rfl | ⟨hname, earlier, later, rfl, hlater⟩)
    · exact ⟨calls, [], rfl, by simp⟩
    · refine ⟨earlier, later ++ [call], by simp, fun other hother => ?_⟩
      rcases List.mem_append.1 hother with hold | hlast
      · exact hlater other hold
      · rwa [List.mem_singleton.1 hlast]

/-- A name that a call sets anew arrives with it. -/
theorem arrivesAt_length {name : String} (value : String) (h : ∀ held, ¬ Holds calls name held) :
    ArrivesAt (calls ++ [set name value]) name calls.length :=
  ⟨calls, value, [], rfl, rfl, h, List.not_mem_nil⟩

/-- A name that has arrived stays in its place until it is removed. -/
theorem ArrivesAt.concat {name : String} {place : Nat} (h : ArrivesAt calls name place)
    (hcall : call ≠ remove name) : ArrivesAt (calls ++ [call]) name place := by
  obtain ⟨earlier, value, later, rfl, hplace, hnew, hlater⟩ := h
  refine ⟨earlier, value, later ++ [call], by simp, hplace, hnew, fun hmem => ?_⟩
  rcases List.mem_append.1 hmem with hold | hlast
  · exact hlater hold
  · exact hcall (List.mem_singleton.1 hlast).symm

theorem ArrivesAt.lt_length {name : String} {place : Nat} (h : ArrivesAt calls name place) :
    place < calls.length := by
  obtain ⟨earlier, value, later, rfl, rfl, -, -⟩ := h
  simp

/-- A name that is set and not removed afterwards is still set. -/
theorem exists_holds_append {name value : String} (h : Holds calls name value)
    {later : List AttributeCall} (hlater : remove name ∉ later) :
    ∃ held, Holds (calls ++ later) name held := by
  induction later using List.reverseRecOn with
  | nil => exact ⟨value, by rwa [List.append_nil]⟩
  | append_singleton later call ih =>
      obtain ⟨held, hheld⟩ := ih fun hmem => hlater (List.mem_append_left _ hmem)
      rw [← List.append_assoc]
      cases call with
      | set other new =>
          by_cases hname : other = name
          · exact ⟨new, holds_concat.2 (.inl (by rw [hname]))⟩
          · exact ⟨held, holds_concat.2 (.inr ⟨hname, hheld⟩)⟩
      | remove other =>
          have hname : other ≠ name := by
            rintro rfl
            exact hlater (List.mem_append_right _ (List.mem_singleton_self _))
          exact ⟨held, holds_concat.2 (.inr ⟨hname, hheld⟩)⟩

/-- A name does not arrive again as long as it is set. -/
theorem ArrivesAt.le {name : String} {i j : Nat} (hi : ArrivesAt calls name i)
    (hj : ArrivesAt calls name j) : j ≤ i := by
  obtain ⟨earlier, value, later, rfl, rfl, -, hkept⟩ := hi
  obtain ⟨before, other, behind, hcalls, rfl, hnew, -⟩ := hj
  by_contra hlt
  obtain ⟨between, rfl, hlater⟩ : ∃ between, before = earlier ++ set name value :: between ∧
      later = between ++ set name other :: behind := by
    rcases List.append_eq_append_iff.1 hcalls with ⟨tail, rfl, htail⟩ | ⟨tail, rfl, -⟩
    · cases tail with
      | nil => simp at hlt
      | cons first between =>
          obtain ⟨rfl, hlater⟩ := List.cons.inj htail
          exact ⟨between, rfl, hlater⟩
    · simp at hlt
  have hholds : Holds (earlier ++ [set name value]) name value :=
    ⟨earlier, [], rfl, fun _ hmem => absurd hmem List.not_mem_nil⟩
  have hbetween : remove name ∉ between := fun hmem =>
    hkept (hlater ▸ List.mem_append_left _ hmem)
  obtain ⟨held, hheld⟩ := exists_holds_append hholds hbetween
  exact hnew held (by simpa using hheld)

theorem ArrivesAt.unique {name : String} {i j : Nat} (hi : ArrivesAt calls name i)
    (hj : ArrivesAt calls name j) : i = j :=
  Nat.le_antisymm (hj.le hi) (hi.le hj)

theorem Precedes.concat {first second : String} (h : Precedes calls first second)
    (hfirst : call ≠ remove first) (hsecond : call ≠ remove second) :
    Precedes (calls ++ [call]) first second := by
  obtain ⟨i, j, hi, hj, hlt⟩ := h
  exact ⟨i, j, hi.concat hfirst, hj.concat hsecond, hlt⟩

/-! ## Attributes behind calls -/

/-- Attributes are what calls leave: no name twice, each with its value, in order of arrival. -/
structure Leaves (calls : List AttributeCall) (attributes : Table String) : Prop where
  distinct : (Table.keys attributes).Nodup
  value : ∀ name value, Table.find? attributes name = some value ↔ Holds calls name value
  arrived : ∀ name ∈ Table.keys attributes, ∃ place, ArrivesAt calls name place
  order : (Table.keys attributes).Pairwise (Precedes calls)

namespace Leaves

variable {attributes : Table String}

theorem nil : Leaves [] [] where
  distinct := List.nodup_nil
  value name value := ⟨fun h => (nomatch h), fun h => absurd h (not_holds_nil name value)⟩
  arrived _ hname := absurd hname List.not_mem_nil
  order := List.Pairwise.nil

/-- A name that is set anew comes last, one that is set already keeps its place. -/
theorem set (h : Leaves calls attributes) (name value : String) :
    Leaves (calls ++ [.set name value]) (Table.insert attributes name value) where
  distinct := Table.nodup_keys_insert h.distinct name value
  value other found := by
    rw [Table.find?_insert, holds_concat]
    by_cases hname : name = other
    · subst hname
      simp [AttributeCall.name]
    · simp [AttributeCall.name, hname, h.value]
  arrived other hother := by
    rw [Table.keys_insert] at hother
    have hold {other : String} (hother : other ∈ Table.keys attributes) :
        ∃ place, ArrivesAt (calls ++ [.set name value]) other place :=
      (h.arrived other hother).imp fun _ harrives => harrives.concat nofun
    split at hother
    · exact hold hother
    · next hnew =>
        rcases List.mem_append.1 hother with hpresent | hlast
        · exact hold hpresent
        · rw [List.mem_singleton.1 hlast]
          exact ⟨_, arrivesAt_length value fun held hheld =>
            hnew (Table.mem_keys_iff.2 ⟨held, (h.value name held).2 hheld⟩)⟩
  order := by
    have hold : (Table.keys attributes).Pairwise (Precedes (calls ++ [.set name value])) :=
      h.order.imp fun hprecedes => hprecedes.concat nofun nofun
    rw [Table.keys_insert]
    split
    · exact hold
    · next hnew =>
        refine List.pairwise_append.2 ⟨hold, List.pairwise_singleton _ _, ?_⟩
        intro other hother last hlast
        obtain ⟨place, hplace⟩ := h.arrived other hother
        rw [List.mem_singleton.1 hlast]
        exact ⟨place, calls.length, hplace.concat nofun, arrivesAt_length value fun held hheld =>
          hnew (Table.mem_keys_iff.2 ⟨held, (h.value name held).2 hheld⟩), hplace.lt_length⟩

/-- The other names keep their places when one is removed. -/
theorem remove (h : Leaves calls attributes) (name : String) :
    Leaves (calls ++ [.remove name]) (Table.erase attributes name) := by
  have hkeys : Table.keys (Table.erase attributes name) = (Table.keys attributes).erase name :=
    Table.keys_erase attributes name
  have hother {other : String} (hmem : other ∈ (Table.keys attributes).erase name) :
      AttributeCall.remove name ≠ .remove other := by
    rintro heq
    obtain rfl := AttributeCall.remove.inj heq
    exact (h.distinct.mem_erase_iff.1 hmem).1 rfl
  constructor
  · rw [hkeys]
    exact h.distinct.erase name
  · intro other found
    rw [Table.find?_erase h.distinct, holds_concat]
    by_cases hname : name = other
    · simp [AttributeCall.name, hname]
    · simp [AttributeCall.name, hname, h.value]
  · intro other hmem
    rw [hkeys] at hmem
    exact (h.arrived other (List.mem_of_mem_erase hmem)).imp fun _ harrives =>
      harrives.concat (hother hmem)
  · rw [hkeys]
    have hsub := h.order.sublist (List.erase_sublist (a := name))
    exact hsub.imp_of_mem fun hfirst hsecond hprecedes =>
      hprecedes.concat (hother hfirst) (hother hsecond)

/-- One call. -/
theorem change (h : Leaves calls attributes) (call : AttributeCall) :
    Leaves (calls ++ [call]) (AttributeCall.change attributes call) := by
  cases call with
  | set name value => exact h.set name value
  | remove name => exact h.remove name

/-- Further calls. -/
theorem foldl (h : Leaves calls attributes) (later : List AttributeCall) :
    Leaves (calls ++ later) (later.foldl AttributeCall.change attributes) := by
  induction later generalizing calls attributes with
  | nil => rwa [List.append_nil]
  | cons call later ih =>
      rw [← List.singleton_append, ← List.append_assoc]
      exact ih (h.change call)

/-- Attributes are what setting them in their order leaves. -/
theorem setting (h : (Table.keys attributes).Nodup) :
    Leaves (AttributeCall.setting attributes) attributes := by
  have hset : Leaves _ _ := Leaves.nil.foldl (AttributeCall.setting attributes)
  have htable : (AttributeCall.setting attributes).foldl AttributeCall.change [] =
      Table.ofEntries attributes := by
    rw [AttributeCall.setting, List.foldl_map]
    rfl
  rwa [htable, Table.ofEntries_of_nodup h] at hset

end Leaves

end AttributeCall

/-! ## Calls on a node -/

namespace NodeCell

variable (cell : NodeCell)

theorem takeAttribute_eq (name : String) :
    cell.takeAttribute name = (cell.attribute? name, cell.removeAttribute name) := by
  rw [takeAttribute, Table.pop_eq]
  rfl

theorem withAttributes_self : cell.withAttributes cell.attributes = cell := by
  cases cell <;> rfl

end NodeCell

namespace Dom

variable {dom : Dom} {node : NodeId}

/-- A heap is given by its cells. -/
theorem eq_of_cell? {dom dom' : Dom} (h : ∀ m, dom.cell? m = dom'.cell? m) : dom = dom' := by
  cases dom
  cases dom'
  exact congrArg Dom.mk (Array.ext_getElem? h)

theorem modify_congr {f g : NodeCell → NodeCell}
    (h : ∀ cell, dom.cell? node = some cell → f cell = g cell) :
    dom.modify node f = dom.modify node g := by
  refine eq_of_cell? fun m => ?_
  rw [cell?_modify, cell?_modify]
  by_cases hm : node = m
  · subst hm
    rw [if_pos rfl, if_pos rfl]
    exact Option.map_congr h
  · rw [if_neg hm, if_neg hm]

theorem modify_eq_self {f : NodeCell → NodeCell}
    (h : ∀ cell, dom.cell? node = some cell → f cell = cell) : dom.modify node f = dom := by
  refine eq_of_cell? fun m => ?_
  rw [cell?_modify]
  split
  · next hm =>
      subst hm
      cases hcell : dom.cell? node with
      | none => rfl
      | some cell => exact congrArg some (h cell hcell)
  · rfl

theorem modify_modify (f g : NodeCell → NodeCell) :
    (dom.modify node f).modify node g = dom.modify node fun cell => g (f cell) := by
  refine eq_of_cell? fun m => ?_
  simp only [cell?_modify]
  split
  · exact Option.map_map g f _
  · rfl

theorem takeAttribute_eq (dom : Dom) (node : NodeId) (name : String) :
    dom.takeAttribute node name = (dom.attribute? node name, dom.removeAttribute node name) := by
  unfold takeAttribute attribute? removeAttribute
  cases hcell : dom.cell? node with
  | none =>
      rw [modify_eq_self fun cell hsome => by rw [hcell] at hsome; cases hsome]
      rfl
  | some cell =>
      rw [modify_congr (g := fun _ => cell.removeAttribute name) fun other hother => by
        rw [Option.some.inj (hcell.symm.trans hother)]]
      simp only [cell.takeAttribute_eq, Option.bind_some]

end Dom

namespace AttributeCall

variable {dom : Dom} {node : NodeId}

/-- The heap behind calls on a node, one after another. -/
def run (node : NodeId) (calls : List AttributeCall) (dom : Dom) : Dom :=
  calls.foldl (apply node) dom

theorem apply_eq (dom : Dom) (node : NodeId) (call : AttributeCall) :
    call.apply node dom =
      dom.modify node fun cell => cell.withAttributes (change cell.attributes call) := by
  cases call with
  | set name value => rfl
  | remove name =>
      rw [apply, dom.takeAttribute_eq]
      rfl

/-- Only the attributes of the node change, as the calls say one after another. -/
theorem run_eq (dom : Dom) (node : NodeId) (calls : List AttributeCall) :
    run node calls dom =
      dom.modify node fun cell => cell.withAttributes (calls.foldl change cell.attributes) := by
  induction calls generalizing dom with
  | nil => exact (Dom.modify_eq_self fun cell _ => cell.withAttributes_self).symm
  | cons call calls ih =>
      rw [run, List.foldl_cons, ← run, ih, apply_eq, Dom.modify_modify]
      refine Dom.modify_congr fun cell _ => ?_
      cases cell <;> rfl

end AttributeCall

namespace Dom

open AttributeCall

variable {dom : Dom}

/-- The attributes of an element are an ordered map.  After any calls on it no name occurs twice,
each name has the value that was set last and not removed since, removing it gives that value, and
the names stand in the order in which each was set first since it was last removed.  On a node that
is no element the calls change nothing, and nothing is found or removed. -/
theorem attributes_follow_calls (h : dom.Reachable fun _ _ => True) (node : NodeId)
    (calls : List AttributeCall) :
    (∀ tag start children, dom.cell? node = some (.element tag start children) →
      (Table.keys ((run node calls dom).attributesOf node)).Nodup ∧
      (∀ name value, (run node calls dom).attribute? node name = some value ↔
        Holds (setting start ++ calls) name value) ∧
      (∀ name, ((run node calls dom).takeAttribute node name).1 =
        (run node calls dom).attribute? node name) ∧
      (∀ name ∈ Table.keys ((run node calls dom).attributesOf node),
        ∃ place, ArrivesAt (setting start ++ calls) name place) ∧
      (Table.keys ((run node calls dom).attributesOf node)).Pairwise fun first second =>
        ∀ i j, ArrivesAt (setting start ++ calls) first i →
          ArrivesAt (setting start ++ calls) second j → i < j) ∧
    ((∀ tag start children, dom.cell? node ≠ some (.element tag start children)) →
      run node calls dom = dom ∧ ∀ name, dom.attribute? node name = none ∧
        dom.takeAttribute node name = (none, dom)) := by
  constructor
  · intro tag start children hcell
    have hleaves : Leaves (setting start ++ calls) (calls.foldl change start) :=
      (Leaves.setting (Keyed.of_reachable h node _ hcell)).foldl calls
    have hafter : (run node calls dom).cell? node =
        some (.element tag (calls.foldl change start) children) := by
      rw [run_eq, cell?_modify, if_pos rfl, hcell]
      rfl
    have hattribute (name : String) : (run node calls dom).attribute? node name =
        Table.find? (calls.foldl change start) name := by
      rw [attribute?, hafter]
      rfl
    rw [attributesOf_of_cell? hafter]
    refine ⟨hleaves.distinct, fun name value => ?_, fun name => ?_, hleaves.arrived, ?_⟩
    · rw [hattribute]
      exact hleaves.value name value
    · rw [takeAttribute_eq]
    · refine hleaves.order.imp fun hprecedes i j hi hj => ?_
      obtain ⟨place, place', hplace, hplace', hlt⟩ := hprecedes
      rwa [hi.unique hplace, hj.unique hplace']
  · intro hother
    have hsame {attributes : NodeCell → Table String} :
        (dom.modify node fun cell => cell.withAttributes (attributes cell)) = dom := by
      refine modify_eq_self fun cell hcell => ?_
      cases cell with
      | element tag start children => exact absurd hcell (hother tag start children)
      | _ => rfl
    have hnone (name : String) : dom.attribute? node name = none := by
      rw [attribute?]
      cases hcell : dom.cell? node with
      | none => rfl
      | some cell =>
          cases cell with
          | element tag start children => exact absurd hcell (hother tag start children)
          | _ => rfl
    refine ⟨(run_eq dom node calls).trans hsame, fun name => ⟨hnone name, ?_⟩⟩
    rw [takeAttribute_eq, hnone]
    exact congrArg _ hsame

/-- A paragraph with a comment below it. -/
def notedParagraph : Dom :=
  (NodeOperation.append 0 1).apply ((NodeOperation.comment "note").apply
    ((NodeOperation.setAttribute 0 "id" "p").apply ((NodeOperation.element "p").apply {})))

/-- An overwritten name keeps its place, and one that was removed comes back at the end. -/
def mixedCalls : List AttributeCall :=
  [.set "class" "a", .set "id" "q", .remove "class", .set "title" "t", .set "class" "b"]

theorem attributes_follow_calls_notedParagraph :
    (run 0 mixedCalls notedParagraph).attributesOf 0 =
        [("id", "q"), ("title", "t"), ("class", "b")] ∧
      ((run 0 mixedCalls notedParagraph).takeAttribute 0 "class").1 = some "b" ∧
      Holds (setting [("id", "p")] ++ mixedCalls) "class" "b" ∧
      (∀ i j, ArrivesAt (setting [("id", "p")] ++ mixedCalls) "title" i →
        ArrivesAt (setting [("id", "p")] ++ mixedCalls) "class" j → i < j) ∧
      run 1 mixedCalls notedParagraph = notedParagraph := by
  have hreachable : notedParagraph.Reachable fun _ _ => True := by
    refine .step (.step (.step (.step .empty ?_ trivial) ?_ trivial) ?_ trivial) ?_ trivial
    all_goals decide
  obtain ⟨-, hvalue, htaken, -, horder⟩ :=
    (attributes_follow_calls hreachable 0 mixedCalls).1 "p" [("id", "p")] [1] rfl
  have hother := (attributes_follow_calls hreachable 1 mixedCalls).2 (by
    intro tag start children hcell
    rw [show notedParagraph.cell? 1 = some (.comment "note") from rfl] at hcell
    cases hcell)
  have hattributes : (run 0 mixedCalls notedParagraph).attributesOf 0 =
      [("id", "q"), ("title", "t"), ("class", "b")] := by decide
  rw [hattributes] at horder
  have hpair := (List.pairwise_cons.1 (List.pairwise_cons.1 horder).2).1 "class" (by decide)
  exact ⟨hattributes, (htaken "class").trans (by decide), (hvalue "class" "b").1 (by decide), hpair,
    hother.1⟩

end Dom

end LiveTemplate
