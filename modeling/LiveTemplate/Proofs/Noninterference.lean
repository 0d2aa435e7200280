import LiveTemplate.Proofs.Mounting
import LiveTemplate.Proofs.Template.Coating

/-!
# Data does not reach the markup

In a template without `html` directives, whatever is mounted and whatever is written later, the data
shows in texts only.  Which tags, attributes and comments the document is written with, and in which
order, is settled by the template: two mounts of the same template under different data cannot be
told apart by them.
-/

namespace LiveTemplate

variable {σ : Type}

/-! ## One mount -/

/-- The elements that a mount coats: those with a directive that are met first on the way down from
the root. -/
def Dom.Dressed (start : String) (base : Dom) (root? : Option NodeId) (m : NodeId) : Prop :=
  ∃ root, root? = some root ∧ ∃ n ∈ base.childrenOf root, Coats start base n m

namespace Mount

variable {options : Options} {document : NodeId} {tree : Tree NodeId} {mount : Mount}
  {mountLimit : Nat} {s s₁ : Store σ}

/-- A mount binds mild places below its root, if it has one. -/
theorem create_coats (htree : s.dom.tree? document = some tree)
    (hhtml : ∀ m ∈ tree.labels,
      options.directivePrefix ++ "html" ∉ Table.keys (s.dom.attributesOf m))
    (h : create mountLimit options document id s = some (.ok mount, s₁)) :
    ∃ u places, prepare options document s = some (.ok (mount.data, mount.keys, mount.el), u) ∧
      Binds (.over (some mount.keys) mount.data) mount.data places u (.ok mount.bindings) s₁ ∧
      s.dom.Coated (s.dom.Dressed options.directivePrefix mount.el) s₁.dom ∧
      ∀ place ∈ places, place.Mild (s.dom.Dressed options.directivePrefix mount.el) s₁.dom := by
  obtain ⟨u, hprepare, ⟨hel, hbindings, rfl⟩ | ⟨root, v, hel, hcompile, rfl⟩⟩ := create_ok h
  · have hdom := (prepare_fresh hprepare).1
    have hnone : s.dom.Dressed options.directivePrefix mount.el = fun _ => False := by
      funext m
      simp [Dom.Dressed, hel]
    refine ⟨u, [], hprepare, ?_, ?_, fun _ h => absurd h List.not_mem_nil⟩
    · rw [hbindings]
      exact .nil ((Store.Enrolled.report u _).trans (.report _ _)) rfl
    · rw [hnone]
      exact hdom ▸ Dom.Coated.refl u.dom
  · have hdom := (prepare_fresh hprepare).1
    have hroot : root ∈ tree.labels :=
      mem_labels_of_rootIn htree ((prepare_observed hprepare).2.symm.trans hel)
    obtain ⟨below, hbelow, hsublist⟩ := Dom.treeWithin?_of_mem_labels htree hroot
    have htemplate : u.dom.Template options.directivePrefix root := by
      rw [hdom]
      exact ⟨_, below, hbelow, fun m hm => hhtml m (hsublist.mem hm)⟩
    have hstandard : (Compiler.standard options.directivePrefix (some mount.keys)
        mount.data).compile mountLimit root u = some (.ok mount.bindings, v) := hcompile
    obtain ⟨places, hbinds, hcoated, hmild⟩ := Compiler.compile_coats htemplate hstandard
    have hsame : (fun m => ∃ n ∈ u.dom.childrenOf root,
        Coats options.directivePrefix u.dom n m) =
          s.dom.Dressed options.directivePrefix mount.el := by
      funext m
      simp [Dom.Dressed, hel, hdom]
    rw [hsame] at hcoated hmild
    exact ⟨u, places, hprepare, hbinds.followed (.report v _) rfl, hdom ▸ hcoated, hmild⟩

/-- Behind the mount, whatever feeds the data paints mild places only. -/
theorem feed_coats {limit : Nat} {operations : List (Operation σ)}
    (htree : s.dom.tree? document = some tree) (hidle : s.active = none)
    (hhtml : ∀ m ∈ tree.labels,
      options.directivePrefix ++ "html" ∉ Table.keys (s.dom.attributesOf m))
    (h : create mountLimit options document id s = some (.ok mount, s₁)) (hlimit : 0 < limit)
    (hfeeds : ∀ operation ∈ operations, operation.Feeds s₁ mount.data) :
    ∃ t, Operation.performAll limit operations s₁ = some t ∧
      s.dom.Coated (s.dom.Dressed options.directivePrefix mount.el) t.dom := by
  obtain ⟨fuel, rfl⟩ : ∃ fuel, limit = fuel + 1 := ⟨limit - 1, by omega⟩
  obtain ⟨u, places, hprepare, hbinds, hcoated, hmild⟩ := create_coats htree hhtml h
  obtain ⟨roster, rfl, -, hcrewed, -, hthere⟩ := crewed_of_binds hidle hprepare hbinds
  obtain ⟨t, hrun, -, -, -, hlast⟩ := hcrewed.performAll fuel hthere hfeeds
    (I := s.dom.Coated (s.dom.Dressed options.directivePrefix mount.el)) hcoated
    fun field value dom hheads hdom => by
      refine hdom.paintEach (fun place hplace => ?_) value
      obtain ⟨entry, hentry, rfl⟩ := List.mem_map.1 hplace
      exact (hmild entry.2 (List.mem_map_of_mem (List.mem_filter.1 hentry).1)).mono hheads
        fun _ hm => hm
  exact ⟨t, hrun, hlast⟩

/-! ## Two mounts -/

/-- Two mounts below the same selector of the same document, no element of which has an `html`
directive: whatever the data is and whatever is written to it through keys and fields, the document
has the same marks in the end.  What it is written as are these marks, with runs around them that
have no angle bracket and no quotation mark. -/
theorem data_interferes_with_texts_only {σ' : Type} {options options' : Options}
    {document : NodeId} {tree : Tree NodeId} {mountLimit mountLimit' limit limit' : Nat}
    {mount mount' : Mount} {s s₁ : Store σ} {s' s₁' : Store σ'}
    {operations : List (Operation σ)} {operations' : List (Operation σ')}
    (hdom : s'.dom = s.dom) (hel : options'.el = options.el)
    (hstart : options'.directivePrefix = options.directivePrefix)
    (htree : s.dom.tree? document = some tree)
    (hhtml : ∀ m ∈ tree.labels,
      options.directivePrefix ++ "html" ∉ Table.keys (s.dom.attributesOf m))
    (hidle : s.active = none) (hidle' : s'.active = none)
    (hmount : create mountLimit options document id s = some (.ok mount, s₁))
    (hmount' : create mountLimit' options' document id s' = some (.ok mount', s₁'))
    (hlimit : 0 < limit) (hlimit' : 0 < limit')
    (hfeeds : ∀ operation ∈ operations, operation.Feeds s₁ mount.data)
    (hfeeds' : ∀ operation ∈ operations', operation.Feeds s₁' mount'.data) :
    ∃ t t' last last',
      Operation.performAll limit operations s₁ = some t ∧
      Operation.performAll limit' operations' s₁' = some t' ∧
      t.dom.tree? document = some last ∧ t'.dom.tree? document = some last' ∧
      last.marks = last'.marks ∧ Woven last.marks last.outerMarkup.toList ∧
      Woven last'.marks last'.outerMarkup.toList := by
  classical
  have hsame : mount'.el = mount.el := by
    obtain ⟨u, hprepare, -⟩ := create_ok hmount
    obtain ⟨u', hprepare', -⟩ := create_ok hmount'
    rw [(prepare_observed hprepare).2, (prepare_observed hprepare').2, hdom, hel]
  obtain ⟨t, hrun, hcoated⟩ := feed_coats htree hidle hhtml hmount hlimit hfeeds
  obtain ⟨t', hrun', hcoated'⟩ := feed_coats (hdom ▸ htree) hidle'
    (by rw [hstart, hdom]; exact hhtml) hmount' hlimit' hfeeds'
  rw [hdom, hstart, hsame] at hcoated'
  -- Both documents have the marks of one template with the same elements coated.
  obtain ⟨last, hlast, hmarks⟩ := hcoated.tree?_marks_frame htree
  obtain ⟨last', hlast', hmarks'⟩ := hcoated'.tree?_marks_frame htree
  have hwoven (tree : Tree NodeId) : Woven tree.marks tree.outerMarkup.toList := by
    unfold Tree.outerMarkup
    rw [String.toList_ofList]
    exact tree.woven
  exact ⟨t, t', last, last', hrun, hrun', hlast, hlast', hmarks.trans hmarks'.symm, hwoven last,
    hwoven last'⟩

/-- An element whose text is data, and beside it a text with an interpolation and a comment. -/
def badge : Store Unit where
  dom := ⟨#[.document [1], .element "main" [] [2, 4, 5], .element "p" [("v-text", "name")] [3],
    .element "b" [] [], .text "Hello \x7b\x7bname\x7d\x7d", .comment "end"]⟩
  shared := ()

/-- A name to wear. -/
def badgeOptions (name : String) : Options where
  data := .object [("name", .string name)]
  el := some "main"

/-- A harmless name, and one that looks like markup and is replaced by another such one. -/
theorem data_interferes_with_texts_only_badge :
    ∃ mount mount' s₁ s₁' t t' last last',
      create 9 (badgeOptions "Kai") 0 id badge = some (.ok mount, s₁) ∧
      create 9 (badgeOptions "<script>") 0 id badge = some (.ok mount', s₁') ∧
      Operation.performAll 9 [] s₁ = some t ∧
      Operation.performAll 9 [.write mount'.source "name" (.string "<!--")] s₁' = some t' ∧
      t.dom.tree? 0 = some last ∧ t'.dom.tree? 0 = some last' ∧ last.marks = last'.marks ∧
      Woven last.marks last.outerMarkup.toList ∧ Woven last'.marks last'.outerMarkup.toList := by
  have hmounts (name : String) (h : name = "Kai" ∨ name = "<script>") :
      ∃ mount s₁, create 9 (badgeOptions name) 0 id badge = some (.ok mount, s₁) := by
    have hok : ((create 9 (badgeOptions name) 0 id badge).map fun last =>
        last.1.isOk) = some true := by
      rcases h with rfl | rfl <;> decide +kernel
    obtain ⟨⟨outcome, s₁⟩, hmount, hok⟩ := Option.map_eq_some_iff.1 hok
    cases outcome with
    | error e => cases hok
    | ok mount => exact ⟨mount, s₁, hmount⟩
  obtain ⟨mount, s₁, hmount⟩ := hmounts "Kai" (.inl rfl)
  obtain ⟨mount', s₁', hmount'⟩ := hmounts "<script>" (.inr rfl)
  have htree : badge.dom.tree? 0 = some (.document 0 [.element 1 "main" []
      [.element 2 "p" [("v-text", "name")] [.element 3 "b" [] []],
        .text 4 "Hello \x7b\x7bname\x7d\x7d", .comment 5 "end"]]) := rfl
  have hel : (badgeOptions "<script>").el = (badgeOptions "Kai").el := rfl
  have hfeeds' : ∀ operation ∈ [(.write mount'.source "name" (.string "<!--") : Operation Unit)],
      operation.Feeds s₁' mount'.data := by
    intro operation h
    rw [List.mem_singleton.1 h]
    exact .write (some mount'.keys) "name" (.string "<!--")
  obtain ⟨t, t', last, last', hrun, hrun', hlast⟩ :=
    data_interferes_with_texts_only rfl hel rfl htree (by decide) rfl rfl hmount hmount'
      (show 0 < 9 by decide) (show 0 < 9 by decide)
      (fun _ h => absurd h List.not_mem_nil) hfeeds'
  exact ⟨mount, mount', s₁, s₁', t, t', last, last', hmount, hmount', hrun, hrun', hlast⟩

end Mount

end LiveTemplate
