import LiveTemplate.Proofs.Collector
import LiveTemplate.Proofs.Convergence
import LiveTemplate.Proofs.Template.Crew

/-!
# What a mount leaves

A mount observes its data anew, so the slots of the data are apart and nobody has subscribed to them
when compiling starts.  Behind a mount that was made while nobody was collecting, the subscribers of
the data are the painters of its bindings.
-/

namespace LiveTemplate.Mount

open Session

variable {σ : Type} {options : Options} {document : NodeId} {s t u : Store σ} {data : ObjectId}
  {keys : List String} {el : Option NodeId} {limit : Nat} {mount : Mount}

/-- The root of a mount is a node of the document. -/
theorem mem_labels_of_rootIn {dom : Dom} {root : NodeId} {text? : Option String}
    {tree : Tree NodeId} (htree : dom.tree? document = some tree)
    (h : rootIn dom document text? = some root) : root ∈ tree.labels := by
  obtain ⟨selector, hfound⟩ := exists_query_of_rootIn h
  exact Dom.mem_labels_of_query? htree hfound

/-- The data of a mount is new when compiling starts. -/
theorem prepare_fresh (h : prepare options document s = some (.ok (data, keys, el), t)) :
    t.dom = s.dom ∧ t.active = s.active ∧ t.Apart data ∧ t.Unwatched data := by
  obtain ⟨hobserve, -⟩ := prepare_observed h
  have hslots := s.apart_observe options.notifyPolicy options.data (congrArg Prod.snd hobserve)
  have hdom := ObserveProgress.sameDom.observe options.notifyPolicy s options.data
  have hactive := Progress.sameActive.toObserveProgress.observe options.notifyPolicy s options.data
  rw [hobserve] at hslots hdom hactive
  exact ⟨hdom, hactive, hslots⟩

/-- A mount binds places below its root, if it has one. -/
theorem create_binds (h : create limit options document id s = some (.ok mount, t)) :
    ∃ u places, prepare options document s = some (.ok (mount.data, mount.keys, mount.el), u) ∧
      Binds (.over (some mount.keys) mount.data) mount.data places u (.ok mount.bindings) t ∧
      ∀ place ∈ places, place.Suits t.dom := by
  obtain ⟨u, hprepare, ⟨-, hbindings, rfl⟩ | ⟨root, v, -, hcompile, rfl⟩⟩ := create_ok h
  · refine ⟨u, [], hprepare, ?_, fun _ h => absurd h List.not_mem_nil⟩
    rw [hbindings]
    exact .nil ((Store.Enrolled.report u _).trans (.report _ _)) rfl
  · obtain ⟨places, hbinds, hsuits⟩ := Compiler.compile_suits options.directivePrefix
      (some mount.keys) mount.data limit hcompile
    exact ⟨u, places, hprepare, hbinds.followed (.report v _) rfl, hsuits⟩

/-- Binding places of the data that has been prepared constructs its only subscribers. -/
theorem crewed_of_binds (hidle : s.active = none)
    (hprepare : prepare options document s = some (.ok (data, keys, el), u))
    {places : List Place} {bindings : List Binding}
    (hbinds : Binds (.over (some keys) data) data places u (.ok bindings) t) :
    ∃ roster, roster.map Prod.snd = places ∧
      bindings = roster.map (fun entry => entry.2.binding entry.1) ∧
      Crewed (.over (some keys) data) data roster t ∧ t.Apart data ∧
      data < t.objects.size := by
  obtain ⟨-, hactive, hapart, hunwatched⟩ := prepare_fresh hprepare
  obtain ⟨roster, hplaces, hbindings, hmanned⟩ := hbinds.manned (hactive.trans hidle)
  have hcrewed := hmanned.crewed (hactive.trans hidle) hapart hunwatched
  obtain ⟨cell, hcell, -⟩ := (prepare_ok hprepare).1.isObject
  refine ⟨roster, hplaces, hbindings, hcrewed,
    hcrewed.apart hapart fun key => hmanned.enrolled.field? data key, ?_⟩
  rw [hmanned.enrolled.objects]
  exact (Array.getElem?_eq_some_iff.1 hcell).1

/-- Behind a mount the painters of its bindings are the only subscribers of the data. -/
theorem create_crewed (hidle : s.active = none)
    (h : create limit options document id s = some (.ok mount, t)) :
    ∃ roster, mount.bindings = roster.map (fun entry => entry.2.binding entry.1) ∧
      Crewed (.over (some mount.keys) mount.data) mount.data roster t ∧ t.Apart mount.data ∧
      mount.data < t.objects.size ∧ ∀ entry ∈ roster, entry.2.Suits t.dom := by
  obtain ⟨u, places, hprepare, hbinds, hsuits⟩ := create_binds h
  obtain ⟨roster, rfl, hbindings, hcrewed, hslots⟩ := crewed_of_binds hidle hprepare hbinds
  exact ⟨roster, hbindings, hcrewed, hslots.1, hslots.2,
    fun entry hentry => hsuits entry.2 (List.mem_map_of_mem hentry)⟩

end LiveTemplate.Mount
