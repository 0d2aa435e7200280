import LiveTemplate.Proofs.Dom.Furnished
import LiveTemplate.Proofs.Mounting

/-!
# Interleaved writes

Writes of different keys may come in any order.  A write paints the places of its key and nothing
else, so if each node is bound to one key at most, then what is inside a node in the end depends on
the writes of that key only.  This includes markup that a write installs while nodes below it, bound
to other keys, go on being painted outside the document.
-/

namespace LiveTemplate

variable {σ : Type}

/-! ## Paints -/

namespace Place

/-- What is inside the node when the place shows a value. -/
def inside (place : Place) (value : Value) : List Char :=
  if place.mode = "html" then
    Tree.outerChars.forestChars (Markup.parseMarkup (place.shown.render value.display))
  else Text.escapeChars (place.shown.render value.display).toList

/-- The last of the places at a node. -/
def lastAt (places : List Place) (node : NodeId) : Option Place :=
  places.reverse.find? fun place => place.node = node

variable {place : Place} {places : List Place} {base dom : Dom} {node : NodeId}
  {inside? : NodeId → Option (List Char)}

theorem Suits.paint (hplace : place.Suits base) (h : base.Furnished inside? dom) (value : Value) :
    base.Furnished (Function.update inside? place.node (some (place.inside value)))
      (place.paint value dom) := by
  obtain ⟨cell, hcell, hkind⟩ := hplace
  unfold inside Place.paint
  by_cases hmode : place.mode = "html"
  · rw [if_pos hmode, if_pos hmode]
    exact h.setMarkup hcell (hkind.resolve_right fun htext => htext.2 hmode) _
  · rw [if_neg hmode, if_neg hmode]
    exact h.setText hcell (hkind.imp_right And.left) _

/-- A place whose node is there has suited it from the beginning. -/
theorem Suits.of_sameHeads {dom' : Dom} {cell : NodeCell} (h : place.Suits dom')
    (hheads : dom.SameHeads dom') (hcell : dom.cell? place.node = some cell) :
    place.Suits dom := by
  obtain ⟨cell', hcell', hsuits⟩ := h
  obtain ⟨later, hlater, hkind, -⟩ := hheads _ cell hcell
  obtain rfl := Option.some.inj (hcell'.symm.trans hlater)
  exact ⟨cell, hcell, hkind ▸ hsuits⟩

theorem paint_of_none (h : dom.cell? place.node = none) (value : Value) :
    place.paint value dom = dom := by
  unfold Place.paint Dom.setMarkup Dom.setText
  simp only [h, ite_self]

theorem lastAt_cons (place : Place) (rest : List Place) (node : NodeId) :
    lastAt (place :: rest) node =
      (lastAt rest node).or (if place.node = node then some place else none) := by
  unfold lastAt
  rw [List.reverse_cons, List.find?_append, List.find?_singleton]
  simp only [decide_eq_true_eq]

theorem mem_of_lastAt (h : lastAt places node = some place) : place ∈ places ∧ place.node = node :=
  ⟨List.mem_reverse.1 (List.mem_of_find?_eq_some h), by simpa using List.find?_some h⟩

/-- Where the places of a node have one expression, leaving out those of other expressions leaves
the last place or none. -/
theorem lastAt_filter (key : String)
    (hone : ∀ place ∈ places, ∀ other ∈ places, place.node = other.node →
      place.shown.expression = other.shown.expression) (node : NodeId) :
    lastAt (places.filter fun place => place.shown.expression = key) node =
      (lastAt places node).filter fun place => place.shown.expression = key := by
  unfold lastAt
  rw [← List.filter_reverse, List.find?_filter]
  cases hlast : places.reverse.find? fun place => place.node = node with
  | none =>
      rw [List.find?_eq_none] at hlast
      refine List.find?_eq_none.2 fun place hplace => ?_
      simpa using fun _ => by simpa using hlast place hplace
  | some place =>
      obtain ⟨hplace, hnode⟩ := mem_of_lastAt hlast
      by_cases hkey : place.shown.expression = key
      · -- Every place of the node has this expression, so none of them is left out.
        rw [Option.filter_some_pos (by simpa using hkey), ← hlast, ← List.head?_filter,
          ← List.head?_filter]
        congr 1
        refine List.filter_congr fun other hother => ?_
        by_cases hsame : other.node = node
        · have hother' := hone other (List.mem_reverse.1 hother) place hplace
            (hsame.trans hnode.symm)
          simp [hsame, hother', hkey]
        · simp [hsame]
      · rw [Option.filter_some_neg (by simpa using hkey)]
        refine List.find?_eq_none.2 fun other hother => ?_
        simp only [decide_eq_true_eq]
        rintro ⟨hother', hsame⟩
        exact hkey ((hone other (List.mem_reverse.1 hother) place hplace
          (hsame.trans hnode.symm)).symm.trans hother')

end Place

/-- Behind paints of a value, each node has inside what its last place shows. -/
theorem Dom.Furnished.paintEach {base dom : Dom} {inside? : NodeId → Option (List Char)}
    {places : List Place} (h : base.Furnished inside? dom)
    (hsuits : ∀ place ∈ places, place.Suits base) (value : Value) :
    base.Furnished
      (fun m => ((Place.lastAt places m).map fun place => place.inside value).or (inside? m))
      (Place.paintEach value places dom) := by
  induction places generalizing dom inside? with
  | nil => simpa [Place.paintEach, Place.lastAt] using h
  | cons place rest ih =>
      have hrest := ih ((hsuits place List.mem_cons_self).paint h value)
        fun other hother => hsuits other (List.mem_cons_of_mem _ hother)
      refine (congrArg (fun inside? => base.Furnished inside? _) (funext fun m => ?_)).mp hrest
      rw [Place.lastAt_cons]
      cases Place.lastAt rest m with
      | some last => rfl
      | none =>
          by_cases hm : place.node = m
          · simp [hm.symm]
          · simp [hm, Function.update_of_ne (Ne.symm hm)]

/-- Binding places that suit their nodes leaves every tree a tree. -/
theorem Binds.exists_tree {source : Source σ} {data : ObjectId} {places : List Place}
    {s t : Store σ} {outcome : Except CompileError (List Binding)}
    (h : Binds source data places s outcome t) (hsuits : ∀ place ∈ places, place.Suits t.dom)
    {depth : Nat} {node : NodeId} {tree : Tree NodeId}
    (htree : s.dom.treeWithin? depth node = some tree) :
    s.dom.cells.size ≤ t.dom.cells.size ∧ ∃ tree',
      t.dom.treeWithin? (depth + (t.dom.cells.size - s.dom.cells.size)) node = some tree' := by
  induction h generalizing depth tree with
  | nil _ hdom =>
      rw [hdom]
      exact ⟨Nat.le_refl _, tree, Dom.treeWithin?_mono htree (Nat.le_add_right _ _)⟩
  | fails _ _ hdom =>
      rw [hdom]
      exact ⟨Nat.le_refl _, tree, Dom.treeWithin?_mono htree (Nat.le_add_right _ _)⟩
  | @binds place rest s t u field outcome hfield henrolled hdom hrest ih =>
      have hpainted : s.dom.cells.size ≤ t.dom.cells.size ∧ ∃ tree',
          t.dom.treeWithin? (depth + (t.dom.cells.size - s.dom.cells.size)) node =
            some tree' := by
        rw [hdom]
        -- A node that has not been made yet is not painted, and one that has suits its place.
        cases hcell : s.dom.cell? place.node with
        | none =>
            rw [Place.paint_of_none hcell]
            exact ⟨Nat.le_refl _, tree, Dom.treeWithin?_mono htree (Nat.le_add_right _ _)⟩
        | some cell =>
            have hheads : s.dom.SameHeads t.dom := hdom ▸ place.sameHeads_paint _ _
            have hplace := (hsuits place List.mem_cons_self).of_sameHeads
              (hheads.trans hrest.sameHeads) hcell
            have hfurnished := hplace.paint (.nil s.dom) (s.peek field)
            obtain ⟨tree', htree', -⟩ := hfurnished.outerChars_charsWith htree
            exact ⟨hfurnished.size_le, tree', htree'⟩
      obtain ⟨hsize, tree', htree'⟩ := hpainted
      obtain ⟨hsize', tree'', htree''⟩ :=
        ih (fun other hother => hsuits other (List.mem_cons_of_mem _ hother)) htree'
      refine ⟨Nat.le_trans hsize hsize', tree'', ?_⟩
      rw [← htree'']
      congr 1
      omega

/-! ## Values behind writes -/

/-- The values that are written to a key, in order. -/
def writesOf (entries : List (String × Value)) (key : String) : List Value :=
  (entries.filter fun entry => entry.1 = key).map Prod.snd

theorem writesOf_append_singleton (entries : List (String × Value)) (key other : String)
    (value : Value) :
    writesOf (entries ++ [(key, value)]) other =
      writesOf entries other ++ if key = other then [value] else [] := by
  unfold writesOf
  rw [List.filter_append, List.map_append]
  by_cases hkey : key = other <;> simp [hkey]

/-- The value of a field behind a write: the same value is not stored again. -/
def Value.overwrittenBy (old new : Value) : Value := if old.sameValue new then old else new

namespace Store

variable (s : Store σ) (data : ObjectId)

/-- The value of a key behind writes. -/
def valueAfter? (entries : List (String × Value)) (key : String) : Option Value :=
  (s.valueOf? data key).map fun value =>
    (writesOf entries key).foldl Value.overwrittenBy value

/-- What is inside a node behind writes, if one of them was of the key of its places. -/
def insideAfter? (places : List Place) (entries : List (String × Value)) (node : NodeId) :
    Option (List Char) :=
  (Place.lastAt places node).bind fun place =>
    if (writesOf entries place.shown.expression).isEmpty then none
    else (s.valueAfter? data entries place.shown.expression).map place.inside

/-- What writes make of a store in which places are painted: the keys have their last values, and
the nodes show them. -/
structure Settled (places : List Place) (entries : List (String × Value)) (t : Store σ) : Prop where
  objects : t.objects = s.objects
  keyed : ∀ key, t.valueOf? data key = s.valueAfter? data entries key
  others : ∀ field, (∀ key, s.field? data key ≠ some field) → t.peek field = s.peek field
  furnished : s.dom.Furnished (s.insideAfter? data places entries) t.dom

theorem Settled.refl (places : List Place) : s.Settled data places [] s where
  objects := rfl
  keyed key := by
    unfold valueAfter? writesOf
    cases s.valueOf? data key <;> rfl
  others _ _ := rfl
  furnished := by
    have hnone : s.insideAfter? data places [] = fun _ => none := by
      funext m
      unfold insideAfter? writesOf
      cases Place.lastAt places m <;> rfl
    rw [hnone]
    exact .nil s.dom

variable {s data}

theorem postedTo_places (hapart : s.Apart data) {key : String} {field : FieldId}
    (hfield : s.field? data key = some field) (roster : List (SubscriberId × Place)) :
    (s.postedTo data roster field).map Prod.snd =
      (roster.map Prod.snd).filter fun place => place.shown.expression = key := by
  unfold postedTo
  rw [List.filter_map]
  refine congrArg _ (List.filter_congr fun entry _ => ?_)
  simp only [Function.comp_apply, hapart.field?_iff hfield]

theorem valueAfter?_append_singleton (entries : List (String × Value)) (key other : String)
    (value : Value) :
    s.valueAfter? data (entries ++ [(key, value)]) other =
      if key = other then (s.valueAfter? data entries other).map (·.overwrittenBy value)
      else s.valueAfter? data entries other := by
  unfold valueAfter?
  rw [writesOf_append_singleton]
  by_cases hkey : key = other
  · rw [if_pos hkey, if_pos hkey, Option.map_map]
    simp only [List.foldl_append]
    rfl
  · rw [if_neg hkey, if_neg hkey, List.append_nil]

/-- A write changes the value of its own key only. -/
theorem Written.valueOf? {t u : Store σ} {key : String} {field : FieldId} {value : Value}
    {places : List Place} (h : t.Written field value places u)
    (hfield : t.field? data key = some field)
    (hunique : ∀ other, t.field? data other = some field → other = key) (other : String) :
    u.valueOf? data other =
      if key = other then (t.valueOf? data other).map (·.overwrittenBy value)
      else t.valueOf? data other := by
  unfold Store.valueOf?
  rw [field?_congr h.objects, h.peek]
  by_cases hkey : key = other
  · subst hkey
    rw [if_pos rfl, hfield, Option.map_some, Function.update_self]
    rfl
  · rw [if_neg hkey]
    cases hslot : t.field? data other with
    | none => rfl
    | some slot =>
        have hne : slot ≠ field := fun hsame => hkey (hunique other (hsame ▸ hslot)).symm
        rw [Option.map_some, Option.map_some, Function.update_of_ne hne]

/-- The places of a node are all painted by a write, or none of them. -/
theorem insideAfter?_append_singleton {places : List Place} {entries : List (String × Value)}
    {key : String} {value now : Value}
    (hone : ∀ place ∈ places, ∀ other ∈ places, place.node = other.node →
      place.shown.expression = other.shown.expression)
    (hvalue : s.valueAfter? data (entries ++ [(key, value)]) key = some now) (node : NodeId) :
    s.insideAfter? data places (entries ++ [(key, value)]) node =
      ((Place.lastAt (places.filter fun place => place.shown.expression = key) node).map
        fun place => place.inside now).or (s.insideAfter? data places entries node) := by
  rw [Place.lastAt_filter key hone]
  unfold insideAfter?
  cases Place.lastAt places node with
  | none => rfl
  | some place =>
      rw [Option.bind_some, Option.bind_some, writesOf_append_singleton]
      by_cases hkey : place.shown.expression = key
      · rw [Option.filter_some_pos (by simpa using hkey), hkey, hvalue, if_pos rfl]
        simp
      · rw [Option.filter_some_neg (by simpa using hkey), valueAfter?_append_singleton,
          if_neg (Ne.symm hkey), if_neg (Ne.symm hkey), List.append_nil]
        rfl

/-- One write more. -/
theorem Settled.write {roster : List (SubscriberId × Place)} {entries : List (String × Value)}
    {t u : Store σ} {key : String} {field : FieldId} {value : Value}
    (h : s.Settled data (roster.map Prod.snd) entries t) (hapart : s.Apart data)
    (hsuits : ∀ entry ∈ roster, entry.2.Suits s.dom)
    (hone : ∀ place ∈ roster.map Prod.snd, ∀ other ∈ roster.map Prod.snd,
      place.node = other.node → place.shown.expression = other.shown.expression)
    (hfield : t.field? data key = some field)
    (hwritten : t.Written field value ((t.postedTo data roster field).map Prod.snd) u) :
    s.Settled data (roster.map Prod.snd) (entries ++ [(key, value)]) u := by
  have hslots := field?_congr h.objects data
  have hfirst : s.field? data key = some field := (hslots key).symm.trans hfield
  have hunique (other : String) (hother : t.field? data other = some field) : other = key :=
    hapart.unique other key field ((hslots other).symm.trans hother) hfirst
  have hkeyed (other : String) :
      u.valueOf? data other = s.valueAfter? data (entries ++ [(key, value)]) other := by
    rw [hwritten.valueOf? hfield hunique, valueAfter?_append_singleton, h.keyed]
  rw [postedTo_congr h.objects, postedTo_places hapart hfirst] at hwritten
  refine ⟨hwritten.objects.trans h.objects, hkeyed, fun other hother => ?_, ?_⟩
  · have hne : other ≠ field := fun hsame => hother key (hsame ▸ hfirst)
    rw [hwritten.peek, Function.update_of_ne hne, h.others other hother]
  · -- The places that are painted are those that show the key.
    have hserved : ∀ place ∈ (roster.map Prod.snd).filter fun place =>
        place.shown.expression = key, place.Suits s.dom := by
      intro place hplace
      obtain ⟨entry, hentry, rfl⟩ := List.mem_map.1 (List.mem_filter.1 hplace).1
      exact hsuits entry hentry
    have hvalue : s.valueAfter? data (entries ++ [(key, value)]) key = some (u.peek field) := by
      rw [← hkeyed, valueOf?, field?_congr hwritten.objects, hfield]
      rfl
    have hpainted := h.furnished.paintEach hserved (u.peek field)
    rw [← hwritten.dom] at hpainted
    rw [show s.insideAfter? data (roster.map Prod.snd) (entries ++ [(key, value)]) = _ from
      funext (insideAfter?_append_singleton hone hvalue)]
    exact hpainted

/-- Writes with the same values in the same order for each key make the same of a store. -/
theorem Settled.agree {places : List Place} {entries entries' : List (String × Value)}
    {t t' : Store σ} (h : s.Settled data places entries t) (h' : s.Settled data places entries' t')
    (hsame : ∀ key, writesOf entries key = writesOf entries' key) :
    t'.objects = t.objects ∧ t'.peek = t.peek ∧
      s.insideAfter? data places entries' = s.insideAfter? data places entries := by
  have hvalues (key : String) :
      s.valueAfter? data entries' key = s.valueAfter? data entries key := by
    unfold valueAfter?
    rw [hsame key]
  have hobjects : t'.objects = t.objects := h'.objects.trans h.objects.symm
  refine ⟨hobjects, funext fun field => ?_, funext fun node => ?_⟩
  -- The fields of keys hold the values of their keys, and the others what they held at first.
  · by_cases hslot : ∃ key, s.field? data key = some field
    · obtain ⟨key, hkey⟩ := hslot
      have hboth := (h'.keyed key).trans ((hvalues key).trans (h.keyed key).symm)
      rw [valueOf?, valueOf?, field?_congr h'.objects, field?_congr h.objects, hkey] at hboth
      exact Option.some.inj hboth
    · have hnone (key : String) : s.field? data key ≠ some field := fun hkey => hslot ⟨key, hkey⟩
      rw [h'.others field hnone, h.others field hnone]
  · unfold insideAfter?
    cases Place.lastAt places node with
    | none => rfl
    | some place => rw [Option.bind_some, Option.bind_some, hsame, hvalues]

/-- A snapshot is read off objects and values. -/
theorem jsonWithin?_congr {t : Store σ} (hobjects : t.objects = s.objects)
    (hpeek : t.peek = s.peek) (depth : Nat) (value : Value) :
    t.jsonWithin? depth value = s.jsonWithin? depth value := by
  have hfields (object : ObjectId) : t.fieldsOf object = s.fieldsOf object := by
    unfold fieldsOf
    rw [hobjects]
  induction depth generalizing value with
  | zero => cases value <;> rfl
  | succ depth ih => cases value <;> simp only [jsonWithin?, hfields, hpeek, ih]

end Store

namespace Mount

/-- What has happened to a mount leaves its data crewed and its document a tree. -/
theorem feed_keeps {options : Options} {document : NodeId} {tree : Tree NodeId}
    {mountLimit limit : Nat} {mount : Mount} {s s₁ s₂ : Store σ} {earlier : List (Operation σ)}
    (htree : s.dom.tree? document = some tree) (hidle : s.active = none)
    (hmount : create mountLimit options document id s = some (.ok mount, s₁)) (hlimit : 0 < limit)
    (hearlier : ∀ operation ∈ earlier, operation.Feeds s₁ mount.data)
    (hrun : Operation.performAll limit earlier s₁ = some s₂) :
    ∃ roster tree', mount.bindings = roster.map (fun entry => entry.2.binding entry.1) ∧
      Crewed (.over (some mount.keys) mount.data) mount.data roster s₂ ∧ s₂.Apart mount.data ∧
      (∀ entry ∈ roster, entry.2.Suits s₂.dom) ∧ s₂.dom.tree? document = some tree' := by
  obtain ⟨fuel, rfl⟩ : ∃ fuel, limit = fuel + 1 := ⟨limit - 1, by omega⟩
  obtain ⟨roster, hbindings, hcrewed, hapart, hthere, hsuits⟩ := create_crewed hidle hmount
  obtain ⟨t, hrun', hcrewed', hslots, hheads, inside?, hfurnished⟩ :=
    hcrewed.performAll fuel hthere hearlier
      (I := fun dom => ∃ inside?, s₁.dom.Furnished inside? dom) ⟨_, .nil s₁.dom⟩
      fun field value dom _ ⟨inside?, hdom⟩ => ⟨_, hdom.paintEach (fun place hplace => by
        obtain ⟨entry, hentry, rfl⟩ := List.mem_map.1 hplace
        exact hsuits entry (List.mem_filter.1 hentry).1) value⟩
  obtain rfl := Option.some.inj (hrun'.symm.trans hrun)
  -- The document is a tree when the mount is complete, and what is painted later keeps it one.
  obtain ⟨u, places, hprepare, hbinds, hsuits'⟩ := create_binds hmount
  rw [← (prepare_fresh hprepare).1] at htree
  obtain ⟨hsize, mounted, hmounted⟩ := hbinds.exists_tree hsuits' htree
  rw [Nat.add_sub_cancel' hsize] at hmounted
  obtain ⟨last, hlast, -⟩ := hfurnished.outerChars_charsWith hmounted
  rw [Nat.add_sub_cancel' hfurnished.size_le] at hlast
  exact ⟨roster, last, hbindings, hcrewed', hcrewed'.apart hapart hslots,
    fun entry hentry => (hsuits entry hentry).sameHeads hheads, hlast⟩

/-- Behind a mount whose bindings bind no node to two expressions, and behind whatever has fed its
data since then, any two sequences of writes of present keys go through, and if they write the same
values in the same order to each single key, then the document has the same markup in the end and
the data the same snapshot, whatever is in the markup that `html` directives install. -/
theorem interleaved_writes_agree {options : Options} {document : NodeId} {tree : Tree NodeId}
    {mountLimit limit : Nat} {mount : Mount} {s s₁ s₂ : Store σ} {earlier : List (Operation σ)}
    (writer : Option (List String)) {entries entries' : List (String × Value)}
    (htree : s.dom.tree? document = some tree) (hidle : s.active = none)
    (hmount : create mountLimit options document id s = some (.ok mount, s₁))
    (hone : ∀ binding ∈ mount.bindings, ∀ other ∈ mount.bindings,
      binding.node = other.node → binding.expression = other.expression)
    (hlimit : 0 < limit) (hearlier : ∀ operation ∈ earlier, operation.Feeds s₁ mount.data)
    (hrun : Operation.performAll limit earlier s₁ = some s₂)
    (hkeys : ∀ entry ∈ entries, (s₂.field? mount.data entry.1).isSome)
    (hkeys' : ∀ entry ∈ entries', (s₂.field? mount.data entry.1).isSome)
    (hsame : ∀ key, writesOf entries key = writesOf entries' key) :
    ∃ t t' markup,
      (Source.over writer mount.data).writeAll limit entries s₂ = some (.ok (), t) ∧
      (Source.over writer mount.data).writeAll limit entries' s₂ = some (.ok (), t') ∧
      t.dom.outerMarkup? document = some markup ∧ t'.dom.outerMarkup? document = some markup ∧
      t.toJson? (.object mount.data) = t'.toJson? (.object mount.data) := by
  obtain ⟨roster, present, hbindings, hcrewed, hapart, hsuits, hpresent⟩ :=
    feed_keeps htree hidle hmount hlimit hearlier hrun
  obtain ⟨fuel, rfl⟩ : ∃ fuel, limit = fuel + 1 := ⟨limit - 1, by omega⟩
  have hplaces : ∀ place ∈ roster.map Prod.snd, ∀ other ∈ roster.map Prod.snd,
      place.node = other.node → place.shown.expression = other.shown.expression := by
    rw [hbindings] at hone
    simp only [List.forall_mem_map] at hone ⊢
    exact hone
  have hsettled {entries : List (String × Value)}
      (hkeys : ∀ entry ∈ entries, (s₂.field? mount.data entry.1).isSome) :
      ∃ t, (Source.over writer mount.data).writeAll (fuel + 1) entries s₂ = some (.ok (), t) ∧
        s₂.Settled mount.data (roster.map Prod.snd) entries t := by
    obtain ⟨t, hrun, -, -, hlast⟩ := hcrewed.writeAll fuel writer hkeys
      (I := s₂.Settled mount.data (roster.map Prod.snd)) (.refl s₂ _ _)
      fun hsofar hfield hwritten => hsofar.write hapart hsuits hplaces hfield hwritten
    exact ⟨t, hrun, hlast⟩
  obtain ⟨t, hrun, ht⟩ := hsettled hkeys
  obtain ⟨t', hrun', ht'⟩ := hsettled hkeys'
  -- The runs are not compared write by write: what each has settled depends on single keys only.
  obtain ⟨hobjects, hpeek, hinside⟩ := ht.agree ht' hsame
  have hmarkup' := ht'.furnished.outerMarkup?_charsWith hpresent
  rw [hinside] at hmarkup'
  refine ⟨t, t', _, hrun, hrun', ht.furnished.outerMarkup?_charsWith hpresent, hmarkup', ?_⟩
  unfold Store.toJson?
  rw [Store.jsonWithin?_congr hobjects hpeek, hobjects]

/-- An element shows markup. -/
def framed : Store Unit where
  dom := ⟨#[.document [1], .element "main" [] [2], .element "div" [("v-html", "page")] []]⟩
  shared := ()

/-- In the markup of one key there are nodes that show another key. -/
def framedOptions : Options where
  data := .object [("page", .string "<b v-text=\"name\"></b>\x7b\x7bname\x7d\x7d"),
    ("name", .string "A")]
  el := some "main"

/-- The nodes of the first markup are painted once more before or after they leave the document, and
show an object that was made behind the mount. -/
theorem interleaved_writes_agree_framed :
    ∃ mount s₁ s₂ t t' markup, create 9 framedOptions 0 id framed = some (.ok mount, s₁) ∧
      mount.bindings.map Binding.expression = ["page", "name", "name"] ∧
      Operation.performAll 9 [.observe (.object []) .failFast] s₁ = some s₂ ∧
      mount.source.writeAll 9 [("page", .string "<i>x</i>"), ("name", .object 1)] s₂ =
        some (.ok (), t) ∧
      mount.source.writeAll 9 [("name", .object 1), ("page", .string "<i>x</i>")] s₂ =
        some (.ok (), t') ∧
      t.dom.outerMarkup? 0 = some markup ∧ t'.dom.outerMarkup? 0 = some markup := by
  have hall : (create 9 framedOptions 0 id framed).bind (fun
      | (.ok mount, s₁) => (Operation.performAll 9 [.observe (.object []) .failFast] s₁).map
          fun s₂ => (mount.bindings.map Binding.expression, decide (
            (∀ binding ∈ mount.bindings, ∀ other ∈ mount.bindings,
              binding.node = other.node → binding.expression = other.expression) ∧
            (s₂.field? mount.data "page").isSome ∧ (s₂.field? mount.data "name").isSome))
      | (.error _, _) => none) = some (["page", "name", "name"], true) := by decide +kernel
  obtain ⟨⟨outcome, s₁⟩, hmount, hall⟩ := Option.bind_eq_some_iff.1 hall
  cases outcome with
  | error e => cases hall
  | ok mount =>
      obtain ⟨s₂, hmade, hall⟩ := Option.map_eq_some_iff.1 hall
      obtain ⟨hexpressions, hall⟩ := Prod.mk.inj hall
      obtain ⟨hone, hpage, hname⟩ := of_decide_eq_true hall
      have htree : framed.dom.tree? 0 =
          some (.document 0 [.element 1 "main" [] [.element 2 "div" [("v-html", "page")] []]]) :=
        rfl
      have hearlier : ∀ operation ∈ [(.observe (.object []) .failFast : Operation Unit)],
          operation.Feeds s₁ mount.data := by
        intro operation h
        rw [List.mem_singleton.1 h]
        exact .observe (.object []) .failFast
      have hkeys : ∀ entry ∈ [("page", Value.string "<i>x</i>"), ("name", .object 1)],
          (s₂.field? mount.data entry.1).isSome :=
        List.forall_mem_cons.2 ⟨hpage, fun entry hentry => List.mem_singleton.1 hentry ▸ hname⟩
      have hkeys' : ∀ entry ∈ [("name", Value.object 1), ("page", .string "<i>x</i>")],
          (s₂.field? mount.data entry.1).isSome :=
        List.forall_mem_cons.2 ⟨hname, fun entry hentry => List.mem_singleton.1 hentry ▸ hpage⟩
      obtain ⟨t, t', markup, hrun, hrun', hmarkup, hmarkup', -⟩ :=
        interleaved_writes_agree (some mount.keys) htree rfl hmount hone (show 0 < 9 by decide)
          hearlier hmade hkeys hkeys' (fun key => by
            by_cases hkey : "page" = key
            · subst hkey
              rfl
            · by_cases hkey' : "name" = key
              · subst hkey'
                rfl
              · simp [writesOf, hkey, hkey'])
      exact ⟨mount, s₁, s₂, t, t', markup, hmount, hexpressions, hmade, hrun, hrun', hmarkup,
        hmarkup'⟩

end Mount

end LiveTemplate
