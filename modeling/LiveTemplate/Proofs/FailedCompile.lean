import LiveTemplate.Proofs.Activation
import LiveTemplate.Proofs.Isolation
import LiveTemplate.Proofs.Template.Crew
import LiveTemplate.Proofs.Template.Halting

/-!
# Failed compilations

A compilation fails at the first place on its walk whose expression is no key of the data.  What it
has bound by then stays bound and goes on following the data: nothing is taken back.  For the place
itself, and for whatever is behind it, nothing has been constructed or registered, and the nodes
there are as they were.  The node of the place has been painted at those of its own places that come
first.
-/

namespace LiveTemplate

variable {σ : Type}

/-! ## Bound places go on following the data -/

namespace Store

theorem exists_of_mem_registrations {s : Store σ} {field : FieldId} {subscriber : SubscriberId}
    (h : subscriber ∈ s.registrations field) :
    ∃ cell, s.fields[field]? = some cell ∧ subscriber ∈ cell.registrations := by
  unfold registrations at h
  cases hcell : s.fields[field]? with
  | none =>
      rw [hcell] at h
      exact absurd h List.not_mem_nil
  | some cell =>
      rw [hcell] at h
      exact ⟨cell, rfl, h⟩

/-- The place follows its key from here on. -/
structure Follows (t : Store σ) (data : ObjectId) (field : FieldId) (subscriber : SubscriberId)
    (place : Place) : Prop where
  /-- Whatever operations come in between, as long as the key has its field, a write of the key
  serves those registered with the field, and the painter of the place is one of them. -/
  served : ∀ limit operations u, (∀ operation ∈ operations, operation.Composed) →
    Operation.performAll limit operations t = some u →
    u.field? data place.shown.expression = some field →
    ∀ fuel writer value outcome v,
      Engine.run fuel ((Source.over writer data).write place.shown.expression value) u =
        some (outcome, v) →
      ∃ policy registrations within,
        Engine.runMarks fuel ((Source.over writer data).write place.shown.expression value) u =
          .opened field policy registrations :: within ∧
        subscriber ∈ registrations ∧ Serves policy registrations (frame 0 within)
  /-- Whenever the painter is recomputed, it paints the place with the present value. -/
  paints : ∀ fuel u value, u.subscribers[subscriber]? = t.subscribers[subscriber]? →
    u.valueOf? data place.shown.expression = some value →
    ∃ v, Engine.recompute (fuel + 1) subscriber u = some (.ok .null, v) ∧
      v.dom = place.paint value u.dom

theorem follows_of_painter {t : Store σ} {forwarded : Option (List String)} {data : ObjectId}
    {field : FieldId} {subscriber : SubscriberId} {place : Place}
    (hpainter : t.subscribers[subscriber]? = some (place.subscriber (.over forwarded data)))
    (hregistered : subscriber ∈ t.registrations field) :
    t.Follows data field subscriber place where
  served limit operations u hoperations hperformed hfield fuel writer value outcome v hrun := by
    have hgrown := Operation.performAll_keeps Grown.progress hoperations hperformed
    let assigned := (Engine.heard writer place.shown.expression u).assign field value
    have hregistered' : subscriber ∈ assigned.registrations field := by
      rw [registrations_assign, (Engine.enrolled_heard writer _ u).registrations_of_nil]
      exact hgrown.registrations_subset field hregistered
    obtain ⟨cell, hcell, hmem⟩ := exists_of_mem_registrations hregistered'
    have hnotify : Engine.notify (Engine.recompute fuel) field assigned = some (outcome, v) := by
      rw [Engine.run, Engine.runWith_write_over writer hfield, Engine.runWith_setField] at hrun
      exact hrun
    obtain ⟨marks, served, added, hserved, -, hmarks⟩ := Engine.notify_served
      (Engine.recompute_recorded fuel) (Engine.recompute_keeps Grown.progress fuel) hcell hnotify
    refine ⟨cell.policy, cell.registrations, marks ++ [.closed (cell.registrations ++ added)], ?_,
      hmem, ?_⟩
    · rw [Engine.runMarks, Engine.runMarksWith_write_over writer hfield, hmarks]
      rfl
    · simpa using hserved.serves added []
  paints fuel u value hsame hvalue := by
    rw [hpainter] at hsame
    obtain ⟨field, hfield, rfl⟩ := Option.map_eq_some_iff.1 hvalue
    rcases Compiler.run_paint_over forwarded data fuel place u with
      ⟨_, hnone, -⟩ | ⟨field', v, hfield', hrun, -, hdom⟩
    · cases hnone.symm.trans hfield
    · obtain rfl := Option.some.inj (hfield.symm.trans hfield')
      exact ⟨v, (Engine.recompute_succ_of_some hsame).trans hrun, hdom⟩

end Store

/-- Writes of keys of the data go through, and each paints the places of its key, one after another,
with the value that the key has then. -/
def Repaints (data : ObjectId) (roster : List (SubscriberId × Place)) (t : Store σ) : Prop :=
  ∀ fuel writer entries key field value,
    (∀ entry ∈ entries, (t.field? data entry.1).isSome) → t.field? data key = some field →
    ∃ u v, (Source.over writer data).writeAll (fuel + 1) entries t = some (.ok (), u) ∧
      Engine.run (fuel + 1) ((Source.over writer data).write key value) u = some (.ok .null, v) ∧
      u.Written field value ((t.postedTo data roster field).map Prod.snd) v

theorem Crewed.repaints {forwarded : Option (List String)} {data : ObjectId}
    {roster : List (SubscriberId × Place)} {t : Store σ}
    (h : Crewed (.over forwarded data) data roster t) : Repaints data roster t := by
  intro fuel writer entries key field value hkeys hfield
  obtain ⟨u, hwrites, hobjects, hcrewed, -⟩ :=
    h.writeAll fuel writer hkeys (I := fun _ _ => True) trivial fun _ _ _ => trivial
  obtain ⟨v, hwrite, hwritten, -⟩ :=
    hcrewed.write fuel writer ((Store.field?_congr hobjects data key).trans hfield) value
  rw [Store.postedTo_congr hobjects] at hwritten
  exact ⟨u, v, hwrites, hwrite, hwritten⟩

/-! ## What a failure leaves behind -/

/-- What a compilation leaves behind that has stopped at a place, after it was through with some
nodes and had bound the places of a roster. -/
structure LeftBehind (forwarded : Option (List String)) (data : ObjectId) (visited : List NodeId)
    (roster : List (SubscriberId × Place)) (place : Place) (s t : Store σ) : Prop where
  sameData : s.SameData t
  active : t.active = s.active
  /-- The painters of the places are new, and nobody else is. -/
  names : roster.map Prod.fst = List.range' s.subscribers.size roster.length
  subscribers : t.subscribers.toList =
    s.subscribers.toList ++ roster.map fun entry => entry.2.subscriber (.over forwarded data)
  /-- Each painter is registered once, with the field of its expression.  Nobody else is, except for
  whoever was collecting meanwhile, by the first paint of each place. -/
  registrations : ∀ field, t.registrations field = s.registrations field ++
    (s.postedTo data roster field).flatMap fun entry => s.active.toList ++ [entry.1]
  follows : ∀ entry ∈ roster, ∀ field, s.field? data entry.2.shown.expression = some field →
    t.Follows data field entry.1 entry.2
  /-- If nobody else has subscribed to the data, then writes go through. -/
  repaints : s.active = none → s.Unwatched data → Repaints data roster t
  untouched : ∀ m < s.dom.cells.size, m ∉ visited → m ≠ place.node → t.dom.cell? m = s.dom.cell? m
  /-- The last node was found as it had been before, and has been painted at its own places. -/
  found : ∃ dom, (∀ m < s.dom.cells.size, m ∉ visited → dom.cell? m = s.dom.cell? m) ∧
    t.dom = Place.paintAll (s.valueOf? data)
      ((roster.map Prod.snd).filter (·.node = place.node)) dom

namespace Compiler

open Session

/-- A failure leaves the places bound that come before the one at which it stops. -/
theorem StopsAt.leftBehind {start : String} {forwarded : Option (List String)} {data : ObjectId}
    {visited : List NodeId} {earlier own : List Place} {place : Place} {s t : Store σ}
    (h : StopsAt start (.over forwarded data) data visited earlier own place s t)
    (hapart : s.Apart data) (hnode : place.node ∉ visited) :
    ∃ roster, roster.map Prod.snd = earlier ++ own ∧
      LeftBehind forwarded data visited roster place s t := by
  obtain ⟨bindings, hbinds⟩ := h.binds
  obtain ⟨roster, hplaces, -, henlisted⟩ := hbinds.enlisted
  have henrolled := henlisted.enrolled
  have hregistrations := henlisted.registrations hapart
  obtain ⟨dom, hkept, hdom⟩ := h.found
  have hreworked : Dom.Reworked place.node dom t.dom :=
    hdom ▸ Place.reworked_paintAll _ h.node_own dom
  -- Among the bound places, those of the last node are the ones that come first there.
  have hown : (roster.map Prod.snd).filter (·.node = place.node) = own := by
    have hnone : earlier.filter (·.node = place.node) = [] :=
      List.filter_eq_nil_iff.2 fun other hother => by
        simpa using fun heq : other.node = place.node =>
          hnode (heq ▸ h.node_earlier other hother)
    rw [hplaces, List.filter_append, hnone, List.nil_append]
    exact List.filter_eq_self.2 fun other hother => by simpa using h.node_own other hother
  refine ⟨roster, hplaces, ⟨hbinds.sameData, henrolled.active, henlisted.names,
    henrolled.subscribers, hregistrations, fun entry hentry field hfield => ?_,
    fun hidle hunwatched => ?_, fun m hm hout hne => ?_, ⟨dom, hkept, hown ▸ hdom⟩⟩⟩
  · refine Store.follows_of_painter (henlisted.painters entry hentry) ?_
    rw [hregistrations]
    refine List.mem_append_right _ (List.mem_flatMap_of_mem (a := entry) ?_ ?_)
    · exact List.mem_filter.2 ⟨hentry, decide_eq_true hfield⟩
    · exact List.mem_append_right _ (List.mem_singleton.2 rfl)
  · exact ((henlisted.manned hidle).crewed hidle hapart hunwatched).repaints
  · obtain ⟨cell, hcell⟩ := Dom.exists_cell? hm
    have hthere := Dom.lt_size_of_cell? ((hkept m hm hout).trans hcell)
    exact (hreworked.others m hne hthere).trans (hkept m hm hout)

/-- A compilation that ends has walked over nodes below the root, in document order of the tree that
stands there then, where nodes from before are in their old order.  It fails if and only if it meets
a place whose expression is no key of the data, and then with the error for the first such place.
If it does not fail, it has been everywhere.  If it fails, then the places before the one at which
it stops are bound and go on following the data, and nothing is registered for that place or others.
Nodes to which the walk has not come are as they were, and so is its last node, except for what its
own first places have painted. -/
theorem failed_compile_keeps_prefix (start : String) (forwarded : Option (List String))
    {data : ObjectId} {limit : Nat} {root : NodeId} {before : Tree NodeId} {s t : Store σ}
    {outcome : Except CompileError (List Binding)} (hapart : s.Apart data)
    (htree : s.dom.tree? root = some before) (hlabels : before.labels.Nodup)
    (hrun : (standard start forwarded data).compile limit root s = some (outcome, t)) :
    ∃ tree nodes later met, t.dom.tree? root = some tree ∧ tree.labels.Nodup ∧
      Tree.labels.labelsOf tree.children = nodes ++ later ∧
      ((Tree.labels.labelsOf tree.children).filter (· < s.dom.cells.size)).Sublist
        (Tree.labels.labelsOf before.children) ∧
      Meets start (s.valueOf? data) nodes met s.dom t.dom ∧
      ((∃ error, outcome = .error error) ↔
        ∃ place ∈ met, s.field? data place.shown.expression = none) ∧
      (∀ report, outcome = .ok report → later = []) ∧
      ∀ error, outcome = .error error → ∃ visited roster place,
        nodes = visited ++ [place.node] ∧ met = roster.map Prod.snd ++ [place] ∧
        (∀ entry ∈ roster, (s.field? data entry.2.shown.expression).isSome) ∧
        s.field? data place.shown.expression = none ∧
        error = .bind place.shown.expression place.mode
          (.unknownProperty place.shown.expression) ∧
        LeftBehind forwarded data visited roster place s t := by
  rcases bind_eq_some.1 hrun with ⟨found, u, hwalk, hlast⟩ | ⟨error, hwalk, rfl⟩
  · rw [report_bind] at hlast
    obtain ⟨rfl, rfl⟩ := Prod.mk.inj (pure_eq_some.1 hlast)
    obtain ⟨tree, nodes, later, htree', hlabels', hnodes, hsublist, hdone, hitinerary⟩ :=
      walk_itinerary compileNode_orderly htree hlabels hwalk
    obtain ⟨met, hmeets, hbinds⟩ := hitinerary.meets
    have hkeyed := hbinds.keyed_of_ok
    refine ⟨tree, nodes, later, met, htree', hlabels', hnodes, hsublist, hmeets,
      iff_of_false nofun ?_, fun _ _ => hdone found rfl, nofun⟩
    rintro ⟨place, hplace, hmissing⟩
    have hkey := hkeyed place hplace
    rw [hmissing] at hkey
    cases hkey
  · obtain ⟨tree, nodes, later, htree', hlabels', hnodes, hsublist, -, hitinerary⟩ :=
      walk_itinerary compileNode_orderly htree hlabels hwalk
    obtain ⟨visited, earlier, own, place, rfl, rfl, hstops⟩ := hitinerary.stops
    have hnode : place.node ∉ visited := by
      rw [Tree.labels_eq_cons, hnodes, List.append_assoc] at hlabels'
      have happart := (List.nodup_append.1 (List.nodup_cons.1 hlabels').2).2.2
      exact fun hmem => happart _ hmem _ List.mem_cons_self rfl
    obtain ⟨roster, hplaces, hleft⟩ := hstops.leftBehind hapart hnode
    obtain ⟨bindings, hbinds⟩ := hstops.binds
    refine ⟨tree, _, later, _, htree', hlabels', hnodes, hsublist, hstops.meets,
      iff_of_true ⟨_, rfl⟩ ⟨place, List.mem_append_right _ List.mem_cons_self, hstops.missing⟩,
      nofun, fun error herror => ?_⟩
    obtain rfl := Except.error.inj herror
    refine ⟨visited, roster, place, rfl, by rw [hplaces], fun entry hentry => ?_, hstops.missing,
      rfl, hleft⟩
    exact hbinds.keyed_of_ok _ (hplaces ▸ List.mem_map_of_mem hentry)

/-- A directive installs markup in place of a text.  In the markup there is a text whose expression
is no key, and behind the directive there is another text. -/
def halting : Store Unit where
  dom := ⟨#[.element "div" [] [1, 3], .element "p" [("v-html", "page")] [2],
    .text "\x7b\x7bold\x7d\x7d", .text "\x7b\x7bname\x7d\x7d"]⟩
  objects := #[{ policy := .failFast, fields := [("page", 0), ("name", 1)] }]
  fields := #[
    { key := "page", value := .string "<b>\x7b\x7bname\x7d\x7d</b>\x7b\x7bgone\x7d\x7d",
      policy := .failFast },
    { key := "name", value := .string "A", policy := .failFast }]
  shared := ()

/-- Compiling stops in the markup that has just been installed, and has bound the directive and a
text in the markup.  Neither the text that stood there nor the one behind has been touched. -/
theorem failed_compile_keeps_prefix_halting :
    ∃ t visited roster place, (standard "v-" none 0).compile 9 0 halting =
        some (.error (.bind "gone" "text" (.unknownProperty "gone")), t) ∧
      LeftBehind none 0 visited roster place halting t ∧ place.shown.expression = "gone" ∧
      roster.map (fun entry => entry.2.shown.expression) = ["page", "name"] ∧
      t.registrations 1 = [1] ∧ t.dom.cell? 2 = halting.dom.cell? 2 ∧
      t.dom.cell? 3 = halting.dom.cell? 3 := by
  have hall : ((standard "v-" none 0).compile 9 0 halting).bind (fun
      | (.error (.bind expression mode _), t) =>
        some (expression, mode, t.subscribers.toList.map Subscriber.key,
          decide (t.registrations 1 = [1] ∧ t.dom.cell? 2 = halting.dom.cell? 2 ∧
            t.dom.cell? 3 = halting.dom.cell? 3))
      | (.ok _, _) => none) = some ("gone", "text", ["page", "name"], true) := by decide +kernel
  obtain ⟨⟨⟨expression, mode, cause⟩ | _, t⟩, hrun, hresult⟩ := Option.bind_eq_some_iff.1 hall
  case ok => cases hresult
  simp only [Option.some.injEq, Prod.mk.injEq] at hresult
  obtain ⟨rfl, rfl, hkeys, hfacts⟩ := hresult
  have hslots : ∀ key field, halting.field? 0 key = some field →
      key = "page" ∧ field = 0 ∨ key = "name" ∧ field = 1 := by
    intro key field hfield
    have hentry : (key, field) ∈ [("page", 0), ("name", 1)] := Table.mem_of_find? hfield
    simpa using hentry
  have hapart : halting.Apart 0 := by
    refine ⟨fun key field hfield => ?_, fun key key' field hfield hfield' => ?_⟩
    · rcases hslots key field hfield with ⟨-, rfl⟩ | ⟨-, rfl⟩ <;> decide
    · rcases hslots key field hfield with ⟨rfl, rfl⟩ | ⟨rfl, rfl⟩ <;>
        rcases hslots key' _ hfield' with ⟨rfl, h⟩ | ⟨rfl, h⟩ <;> simp_all
  obtain ⟨before, htree, hlabels⟩ : ∃ before, halting.dom.tree? 0 = some before ∧
      before.labels = [0, 1, 2, 3] := ⟨_, rfl, rfl⟩
  obtain ⟨tree, nodes, later, met, -, -, -, -, -, -, -, hfailed⟩ :=
    failed_compile_keeps_prefix "v-" none hapart htree (hlabels ▸ by decide) hrun
  obtain ⟨visited, roster, place, -, -, -, -, herror, hleft⟩ := hfailed _ rfl
  obtain ⟨hexpression, -, rfl⟩ := CompileError.bind.inj herror
  have hexpressions : roster.map (fun entry => entry.2.shown.expression) = ["page", "name"] := by
    rw [hleft.subscribers, List.map_append, List.map_map] at hkeys
    exact hkeys
  rw [← hexpression] at hrun
  exact ⟨t, visited, roster, place, hrun, hleft, hexpression.symm, hexpressions,
    of_decide_eq_true hfacts⟩

end Compiler

end LiveTemplate
