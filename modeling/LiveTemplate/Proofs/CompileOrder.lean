import LiveTemplate.Proofs.Dom.Furnished
import LiveTemplate.Proofs.Template.Repaint

/-!
# Compiling early or late

A program compiles a template and then writes the data, or it writes first and then compiles.
Where no text that is painted into an element while compiling has an interpolation, both give the
same document: the template with the last values at its places.  Compiling goes on into what it has
painted, and a repaint does not, so a text that looks like a template makes a difference.
-/

namespace LiveTemplate

variable {σ : Type}

/-- Whoever has subscribed to the data only looks on. -/
def Store.OnlyLookedAt (s : Store σ) (data : ObjectId) : Prop :=
  ∀ entry ∈ s.fieldsOf data, ∃ cell, s.fields[entry.2]? = some cell ∧
    ∀ subscriber ∈ cell.registrations,
      ∃ watcher, s.subscribers[subscriber]? = some watcher ∧ watcher.LooksOn s.objects

/-- A watcher that writes a line into the journal only looks on. -/
theorem Subscriber.looksOn_of_log {s : Store σ} {data : ObjectId} {key : String} {field : FieldId}
    (hfield : s.field? data key = some field) (forwarded : Option (List String))
    (line : Value → String) :
    (⟨key, .over forwarded data, fun value => .log (line value)⟩ : Subscriber σ).LooksOn
      s.objects := by
  intro fuel t hobjects hidle
  obtain ⟨u, hrun, hst, hdom⟩ := Engine.run_read_over forwarded fuel
    ((Store.field?_congr hobjects data key).trans hfield)
  rw [Store.tracked_of_idle hidle] at hst
  refine ⟨.null, u.record (.line (line (t.peek field))), ?_, hst.trans (.record u _), hdom⟩
  rw [Engine.runWith_bind]
  exact Session.bind_eq_some.2 (.inl ⟨_, u, hrun, rfl⟩)

namespace Compiler

/-- Compile below a root, and then write: whether compiling succeeds, and the markup of a document
in the end. -/
def compileThenWrite? (compiler : Compiler σ) (limit : Nat) (root document : NodeId)
    (entries : List (String × Value)) (s : Store σ) : Option (Bool × Option String) :=
  match compiler.compile limit root s with
  | none => none
  | some (outcome, t) =>
    (Operation.performAll limit (Operation.writes compiler.source entries) t).map fun last =>
      (outcome.isOk, last.dom.outerMarkup? document)

/-- Write, and then compile below a root: whether compiling succeeds, and the markup of a document
in the end. -/
def writeThenCompile? (compiler : Compiler σ) (limit : Nat) (root document : NodeId)
    (entries : List (String × Value)) (s : Store σ) : Option (Bool × Option String) :=
  match Operation.performAll limit (Operation.writes compiler.source entries) s with
  | none => none
  | some t =>
    (compiler.compile limit root t).map fun last =>
      (last.1.isOk, last.2.dom.outerMarkup? document)

variable (start : String) (forwarded : Option (List String)) {data : ObjectId} {limit : Nat}

/-- In a store with the template and its data, compiling leaves painters at the places that it comes
to, and succeeds if all expressions are keys. -/
theorem compile_live {base : Dom} {onlookers : FieldId → List SubscriberId} {depth : Nat}
    {root : NodeId} {template : Tree NodeId} {s : Store σ}
    (hbase : base.treeWithin? depth root = some template) (hlabels : template.labels.Nodup)
    (htextual : ∀ m ∈ template.labels, base.Textual start m)
    (hlive : Live base (.over forwarded data) data onlookers [] s)
    (hquiet : s.Quiet data (template.placesBelow start)) (hlimit : depth < limit) :
    ∃ outcome t roster, (standard start forwarded data).compile limit root s = some (outcome, t) ∧
      Live base (.over forwarded data) data onlookers roster t ∧ s.SameData t ∧
      roster.map Prod.snd = s.reached data (template.placesBelow start) ∧
      (outcome.isOk ↔ ∀ place ∈ template.placesBelow start,
        (s.field? data place.shown.expression).isSome) := by
  have hkept (m : NodeId) (hm : m ∈ template.labels) : s.dom.cell? m = base.cell? m :=
    hlive.painted.others m ((Dom.listed_tree hbase).1.there m hm) rfl
  have hlaid : Laid start data template.labels (template.placesBelow start) s := by
    refine ⟨hlabels, fun m hm => ?_, hquiet⟩
    unfold Dom.Textual Dom.attributesOf
    rw [hkept m hm]
    exact htextual m hm
  obtain ⟨outcome, t, hrun, hbinds⟩ :=
    compile_attends (Dom.treeWithin?_congr hbase hkept) hlaid hlimit
  obtain ⟨roster, ht, hroster, hok⟩ :=
    hlive.binds hbinds (Fitting.of_tree hbase hlabels htextual).2
  exact ⟨outcome, t, roster, hrun, ht, hbinds.sameData, hroster, hok⟩

/-- Compiling a template before or after writes of present keys gives the same document, and
succeeds or fails alike, if whoever else has subscribed to the data only looks on, and if no text
that is painted into an element while compiling, early or late, has an interpolation.  The document
is the template with the last values at the places that compiling comes to. -/
theorem compile_before_or_after_writes {document root : NodeId} {tree template : Tree NodeId}
    {s : Store σ} {entries : List (String × Value)}
    (htree : s.dom.tree? document = some tree) (hlabels : tree.labels.Nodup)
    (hroot : root ∈ tree.labels) (htemplate : s.dom.tree? root = some template)
    (htextual : ∀ m ∈ template.labels, s.dom.Textual start m)
    (hidle : s.active = none) (hdata : s.OnlyLookedAt data)
    (hkeys : ∀ entry ∈ entries, (s.field? data entry.1).isSome)
    (hlimit : s.dom.cells.size < limit) :
    ∃ written, Operation.performAll limit
        (Operation.writes (.over forwarded data) entries) s = some written ∧
      (s.Quiet data (template.placesBelow start) →
        written.Quiet data (template.placesBelow start) →
        ∃ (ok : Bool) (markup : String),
          (ok ↔ ∀ place ∈ template.placesBelow start,
            (s.field? data place.shown.expression).isSome) ∧
          markup = (tree.shown (written.showing? data
            (written.reached data (template.placesBelow start)))).outerMarkup ∧
          (standard start forwarded data).compileThenWrite? limit root document entries s =
            some (ok, some markup) ∧
          (standard start forwarded data).writeThenCompile? limit root document entries s =
            some (ok, some markup)) := by
  -- The template is a part of the document, so no node is twice in it either.
  obtain ⟨part, hpart, hsublist⟩ := Dom.treeWithin?_of_mem_labels htree hroot
  obtain rfl := Option.some.inj (hpart.symm.trans htemplate)
  have hpartLabels := hlabels.sublist hsublist
  obtain ⟨fuel, rfl⟩ : ∃ fuel, limit = fuel + 1 := ⟨limit - 1, by omega⟩
  have hfresh : Live s.dom (.over forwarded data) data s.registrations [] s :=
    .fresh _ hidle fun _ _ hfield => hdata _ (Table.mem_of_find? hfield)
  obtain ⟨written, _, hwritten, -, hobjects, -, hlate, -⟩ :=
    hfresh.performAll_writes fuel hfresh (.refl s) hkeys
  refine ⟨written, hwritten, fun hquiet hquiet' => ?_⟩
  obtain ⟨outcome, compiled, roster, hcompile, hcompiled, hsame, hroster, hok⟩ :=
    compile_live start forwarded hpart hpartLabels htextual hfresh hquiet hlimit
  obtain ⟨outcome', late, roster', hcompile', hlast, hsame', hroster', hok'⟩ :=
    compile_live start forwarded hpart hpartLabels htextual hlate hquiet' hlimit
  obtain ⟨early, again, hearly, hagain, -, hvalues, hpainted, -⟩ :=
    hcompiled.performAll_writes fuel hfresh hsame.symm fun entry hentry => by
      rw [hsame.field?]
      exact hkeys entry hentry
  obtain rfl := Option.some.inj (hwritten.symm.trans hagain)
  -- Both come to the same places, and then hold the same values.
  have hreached := Store.reached_congr hobjects data (part.placesBelow start)
  have hboth : outcome'.isOk = outcome.isOk := by
    rw [Bool.eq_iff_iff, hok, hok']
    simp only [Store.field?_congr hobjects]
  have hmarkup := hpainted.painted.outerMarkup?_shown htree
  have hmarkup' := hlast.painted.outerMarkup?_shown htree
  rw [hroster, ← hreached, ← hvalues.showing?] at hmarkup
  rw [hroster', hsame'.showing?] at hmarkup'
  refine ⟨outcome.isOk, _, hok, rfl, ?_, ?_⟩
  · unfold compileThenWrite?
    rw [hcompile]
    dsimp only
    rw [show (standard start forwarded data : Compiler σ).source = .over forwarded data from rfl,
      hearly, Option.map_some, hmarkup]
  · unfold writeThenCompile?
    rw [show (standard start forwarded data : Compiler σ).source = .over forwarded data from rfl,
      hwritten]
    dsimp only
    rw [hcompile', Option.map_some, hmarkup', hboth]

/-- A paragraph shows a name, and a watcher writes down each greeting. -/
def greeted : Store Unit where
  dom := ⟨#[.element "div" [] [1, 2], .element "p" [("v-text", "name")] [],
    .text "Hello, \x7b\x7bgreeting\x7d\x7d!"]⟩
  objects := #[{ policy := .failFast, fields := [("name", 0), ("greeting", 1)] }]
  fields := #[{ key := "name", value := .string "A", policy := .failFast },
    { key := "greeting", value := .string "x", policy := .failFast, registrations := [0] }]
  subscribers := #[⟨"greeting", .over none 0, fun value => .log value.display⟩]
  shared := ()

theorem compile_before_or_after_writes_greeted :
    ∃ ok markup,
      (standard "v-" none 0).compileThenWrite? 9 0 0
        [("name", .string "B"), ("greeting", .string "y")] greeted = some (ok, some markup) ∧
      (standard "v-" none 0).writeThenCompile? 9 0 0
        [("name", .string "B"), ("greeting", .string "y")] greeted = some (ok, some markup) := by
  have hdata : greeted.OnlyLookedAt 0 := by
    intro entry hentry
    rcases List.mem_cons.1 hentry with rfl | hentry
    · exact ⟨_, rfl, fun _ h => absurd h List.not_mem_nil⟩
    · rw [List.mem_singleton.1 hentry]
      refine ⟨_, rfl, fun subscriber hsubscriber => ?_⟩
      rw [List.mem_singleton.1 hsubscriber]
      have hfield : greeted.field? 0 "greeting" = some 1 := by decide +kernel
      exact ⟨_, rfl, Subscriber.looksOn_of_log hfield none Value.display⟩
  have hall : (greeted.dom.tree? 0).bind (fun tree => (Operation.performAll 9
      (Operation.writes (.over none 0) [("name", .string "B"), ("greeting", .string "y")])
      greeted).map fun written =>
        decide (tree.labels.Nodup ∧ 0 ∈ tree.labels ∧
          (∀ m ∈ tree.labels, greeted.dom.Textual "v-" m) ∧
          greeted.Quiet 0 (tree.placesBelow "v-") ∧ written.Quiet 0 (tree.placesBelow "v-"))) =
      some true := by decide +kernel
  obtain ⟨tree, htree, hall⟩ := Option.bind_eq_some_iff.1 hall
  obtain ⟨written, hwritten, hall⟩ := Option.map_eq_some_iff.1 hall
  obtain ⟨hlabels, hroot, htextual, hquiet, hquiet'⟩ := of_decide_eq_true hall
  have hkeys : ∀ entry ∈ [("name", Value.string "B"), ("greeting", Value.string "y")],
      (greeted.field? 0 entry.1).isSome := by decide +kernel
  have hlimit : greeted.dom.cells.size < 9 := by decide
  obtain ⟨again, hagain, hagree⟩ := compile_before_or_after_writes "v-" none htree hlabels hroot
    htree htextual rfl hdata hkeys hlimit
  obtain rfl := Option.some.inj (hwritten.symm.trans hagain)
  obtain ⟨ok, markup, -, -, hearly, hlate⟩ := hagree hquiet hquiet'
  exact ⟨ok, markup, hearly, hlate⟩

/-- A paragraph shows one of two texts. -/
def braced : Store Unit where
  dom := ⟨#[.element "p" [] [1], .element "b" [("v-text", "a")] []]⟩
  objects := #[{ policy := .failFast, fields := [("a", 0), ("b", 1)] }]
  fields := #[{ key := "a", value := .string "x", policy := .failFast },
    { key := "b", value := .string "B", policy := .failFast }]
  shared := ()

/-- A watcher of the first text always fails. -/
def contested : Store Unit where
  dom := braced.dom
  objects := braced.objects
  fields := braced.fields.modify 0 fun cell => { cell with registrations := [0] }
  subscribers := #[⟨"a", .over none 0, fun _ => .fail (.callback "no")⟩]
  shared := ()

/-- It does make a difference when a template is compiled, if a written text has an interpolation:
compiling goes on into the text that it paints.  It also does if someone else has subscribed who
fails: then a write does not get to the painters. -/
theorem compiling_order_matters :
    ((standard "v-" none 0).compileThenWrite? 9 0 0 [("a", .string "\x7b\x7bb\x7d\x7d")] braced =
        some (true, some "<p><b v-text=\"a\">\x7b\x7bb\x7d\x7d</b></p>") ∧
      (standard "v-" none 0).writeThenCompile? 9 0 0 [("a", .string "\x7b\x7bb\x7d\x7d")] braced =
        some (true, some "<p><b v-text=\"a\">B</b></p>")) ∧
    ((standard "v-" none 0).compileThenWrite? 9 0 0 [("a", .string "y")] contested =
        some (true, some "<p><b v-text=\"a\">x</b></p>") ∧
      (standard "v-" none 0).writeThenCompile? 9 0 0 [("a", .string "y")] contested =
        some (true, some "<p><b v-text=\"a\">y</b></p>")) := by
  refine ⟨⟨?_, ?_⟩, ?_, ?_⟩ <;> decide +kernel

end Compiler

end LiveTemplate
