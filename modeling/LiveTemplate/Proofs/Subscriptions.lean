import LiveTemplate.Proofs.Template.Crew

/-!
# Who subscribes to what

Binding a place reads its key twice: for the first paint, and for the construction of the painter.
Only the second read registers, so each field has one registration more for each binding of its key,
in the order of the report.  Painting again never registers anybody, also where it installs markup
with interpolations.
-/

namespace LiveTemplate

variable {σ : Type}

/-- The subscribers of the bindings of a key are the painters posted to its field. -/
theorem Store.Apart.subscribers_forExpression {s : Store σ} {data : ObjectId}
    (h : s.Apart data) {key : String} {field : FieldId} (hfield : s.field? data key = some field)
    (roster : List (SubscriberId × Place)) :
    (Binding.forExpression (roster.map fun entry => entry.2.binding entry.1) key).map
        Binding.subscriber =
      (s.postedTo data roster field).map Prod.fst := by
  unfold Binding.forExpression Store.postedTo
  rw [List.filter_map, List.map_map]
  have hsame : ∀ entry ∈ roster, ((fun binding : Binding => binding.expression == key) ∘
      fun entry : SubscriberId × Place => entry.2.binding entry.1) entry =
        decide (s.field? data entry.2.shown.expression = some field) := by
    intro entry _
    rw [Bool.eq_iff_iff, decide_eq_true_iff, h.field?_iff hfield]
    exact beq_iff_eq
  rw [List.filter_congr hsame]
  rfl

namespace Compiler

/-- After a successful compilation the field of each key has its registrations from before, and then
the subscribers of the bindings of that key, in the order of the report.  The subscribers are new,
one for each binding, and no other field has changed.  If nobody else has subscribed to the data,
then every later sequence of writes of its keys goes through and registers nobody. -/
theorem registrations_match_report (start : String) (forwarded : Option (List String))
    {data : ObjectId} {limit : Nat} {root : NodeId} {report : List Binding} {s t : Store σ}
    (hidle : s.active = none) (hapart : s.Apart data)
    (hrun : (standard start forwarded data).compile limit root s = some (.ok report, t)) :
    (∀ key field, s.field? data key = some field → ∃ cell, s.fields[field]? = some cell ∧
      t.fields[field]? = some { cell with
        registrations := cell.registrations ++
          (Binding.forExpression report key).map Binding.subscriber }) ∧
    (∀ field, (∀ key, s.field? data key ≠ some field) → t.fields[field]? = s.fields[field]?) ∧
    t.objects = s.objects ∧
    report.map Binding.subscriber = List.range' s.subscribers.size report.length ∧
    (∀ binding ∈ report, (s.field? data binding.expression).isSome) ∧
    (s.Unwatched data → ∀ (writer : Option (List String)) (writeLimit : Nat)
      (entries : List (String × Value)), 0 < writeLimit →
      (∀ entry ∈ entries, (s.field? data entry.1).isSome) →
      ∃ u, (Source.over writer data).writeAll writeLimit entries t = some (.ok (), u) ∧
        ∀ field, u.registrations field = t.registrations field) := by
  obtain ⟨places, hbinds, -⟩ := compile_suits start forwarded data limit hrun
  obtain ⟨roster, rfl, rfl, hmanned⟩ := hbinds.manned hidle
  -- All registrations come from constructions: nobody is collecting when a place is first painted.
  have henrolled := hmanned.enrolled
  have hfields (field : FieldId) : t.fields[field]? = s.fields[field]?.map fun cell =>
      { cell with registrations := cell.registrations ++
        (s.postedTo data roster field).map Prod.fst } := by
    rw [henrolled.fields, getElem?_enroll, Store.registeredWith_postings]
  refine ⟨fun key field hfield => ?_, fun field hnone => ?_, henrolled.objects, ?_, ?_, ?_⟩
  · have hcell : s.fields[field]? = some _ :=
      Array.getElem?_eq_getElem (hapart.there key field hfield)
    refine ⟨_, hcell, ?_⟩
    rw [hfields, hcell, hapart.subscribers_forExpression hfield]
    rfl
  · have hnobody : s.postedTo data roster field = [] :=
      List.filter_eq_nil_iff.2 fun entry _ => by simpa using hnone entry.2.shown.expression
    rw [hfields, hnobody]
    cases s.fields[field]? with
    | none => rfl
    | some cell => simp
  · rw [List.map_map, List.length_map]
    exact hmanned.names
  · refine List.forall_mem_map.2 fun entry hentry => ?_
    exact hbinds.keyed_of_ok _ (List.mem_map_of_mem hentry)
  · intro hunwatched writer writeLimit entries hlimit hkeys
    obtain ⟨fuel, rfl⟩ : ∃ fuel, writeLimit = fuel + 1 := ⟨writeLimit - 1, by omega⟩
    have hcrewed := hmanned.crewed hidle hapart hunwatched
    obtain ⟨u, hwrites, -, -, hsame⟩ := hcrewed.writeAll fuel writer
      (I := fun _ u => ∀ field, u.registrations field = t.registrations field)
      (fun entry hentry => by
        rw [henrolled.field?]
        exact hkeys entry hentry)
      (fun _ => rfl)
      (fun hsofar _ hwritten field => (hwritten.registrations field).trans (hsofar field))
    exact ⟨u, hwrites, hsame⟩

/-- The markup that a write installs has an interpolation of the other key, which nobody binds. -/
theorem registrations_match_report_installing :
    ∃ report t u, (standard "v-" none 0).compile 9 0 installing = some (.ok report, t) ∧
      report.map Binding.expression = ["page", "name"] ∧
      t.registrations 1 = (Binding.forExpression report "name").map Binding.subscriber ∧
      (Source.over none 0).writeAll 9 [("page", .string "<i>\x7b\x7bname\x7d\x7d</i>")] t =
        some (.ok (), u) ∧
      ∀ field, u.registrations field = t.registrations field := by
  have hall : ((standard "v-" none 0).compile 9 0 installing).bind (fun
      | (.ok report, _) => some (report.map Binding.expression)
      | (.error _, _) => none) = some ["page", "name"] := by decide +kernel
  obtain ⟨⟨outcome, t⟩, hrun, hreport⟩ := Option.bind_eq_some_iff.1 hall
  cases outcome with
  | error e => cases hreport
  | ok report =>
      have hslots : ∀ key field, installing.field? 0 key = some field →
          key = "page" ∧ field = 0 ∨ key = "name" ∧ field = 1 := by
        intro key field hfield
        have hentry : (key, field) ∈ [("page", 0), ("name", 1)] := Table.mem_of_find? hfield
        simpa using hentry
      have hapart : installing.Apart 0 := by
        refine ⟨fun key field hfield => ?_, fun key key' field hfield hfield' => ?_⟩
        · rcases hslots key field hfield with ⟨-, rfl⟩ | ⟨-, rfl⟩ <;> decide
        · rcases hslots key field hfield with ⟨rfl, rfl⟩ | ⟨rfl, rfl⟩ <;>
            rcases hslots key' _ hfield' with ⟨rfl, h⟩ | ⟨rfl, h⟩ <;> simp_all
      have hunwatched : installing.Unwatched 0 := by
        intro key field hfield
        rcases hslots key field hfield with ⟨-, rfl⟩ | ⟨-, rfl⟩ <;> rfl
      obtain ⟨hkeys, -, -, -, -, hwrites⟩ :=
        registrations_match_report "v-" none rfl hapart hrun
      obtain ⟨cell, hcell, hlater⟩ := hkeys "name" 1 rfl
      obtain ⟨u, hwrite, hsame⟩ := hwrites hunwatched none 9
        [("page", .string "<i>\x7b\x7bname\x7d\x7d</i>")] (by decide)
        (fun entry hentry => List.mem_singleton.1 hentry ▸ rfl)
      obtain rfl : cell = ⟨"name", .string "A", .failFast, []⟩ := (Option.some.inj hcell).symm
      refine ⟨report, t, u, hrun, Option.some.inj hreport, ?_, hwrite, hsame⟩
      unfold Store.registrations
      rw [hlater]
      rfl

end Compiler

end LiveTemplate
