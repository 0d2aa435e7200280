import LiveTemplate.Proofs.Template.Coating
import LiveTemplate.Proofs.Template.Layout

/-!
# Levels of a walk

A walk that is cut off at too few levels has no outcome.  With enough of them it has one, and more
levels make no difference.  Where that holds of the parts of a walk, one after another, it holds of
the walk, so nobody has to say how many levels are enough.

How deep recomputations may nest makes no difference at all: a visit reads, constructs subscribers
and changes nodes, and nothing of this recomputes a subscriber.
-/

namespace LiveTemplate

variable {σ : Type}

namespace Compiler

open Session Engine

/-! ## Visits without nesting -/

section Limits

variable (start : String) (forwarded : Option (List String)) (data : ObjectId) (limit limit' : Nat)

theorem run_read_limit (key : String) :
    run (σ := σ) limit ((Source.over forwarded data).read key) =
      run limit' ((Source.over forwarded data).read key) := by
  funext s
  rw [run, run, runWith_read_over, runWith_read_over]

/-- Binding a node by an updater that only changes nodes. -/
theorem bindWith_limit {update : Updater σ} {node : NodeId} {change : Value → Dom → Dom}
    (hupdate : update node = fun value => .edit (change value)) (expression mode : String) :
    (standard start forwarded data).bindWith limit (some update) node expression mode =
      (standard start forwarded data).bindWith limit' (some update) node expression mode := by
  have hread : run (σ := σ) limit ((Source.over forwarded data).read expression) = _ :=
    run_read_limit forwarded data limit limit' expression
  have hpaint : run limit (((Source.over forwarded data).read expression).bind (update node)) =
      run limit' (((Source.over forwarded data).read expression).bind (update node)) := by
    rw [run, run, runWith_bind, runWith_bind, hupdate, ← run, hread]
    rfl
  have hwatch : watch limit (Source.over forwarded data) expression (update node) =
      watch limit' (Source.over forwarded data) expression (update node) := by
    rw [watch, watch, hread]
  unfold bindWith
  dsimp only [standard]
  rw [hpaint, hwatch]

theorem compileAttributes_limit (node : NodeId) (attributes : List (String × String)) :
    (standard start forwarded data : Compiler σ).compileAttributes limit node attributes =
      (standard start forwarded data).compileAttributes limit' node attributes := by
  induction attributes with
  | nil => rfl
  | cons entry rest ih =>
      obtain ⟨attributeName, expression⟩ := entry
      rw [compileAttributes, compileAttributes, ih]
      cases (standard start forwarded data : Compiler σ).directiveName? attributeName with
      | none => rfl
      | some name =>
          dsimp only
          cases hfind : Table.find? (standard start forwarded data : Compiler σ).directives name with
          | none => rfl
          | some directive =>
              dsimp only
              -- There are no directives but the two standard ones.
              have hmode : ∃ mode, (mode = "text" ∨ mode = "html") ∧
                  directive = Directive.ofMode mode := by
                have hentry : (name, directive) ∈ Directive.defaults := Table.mem_of_find? hfind
                simp only [Directive.defaults, List.mem_cons, Prod.mk.injEq, List.not_mem_nil,
                  or_false] at hentry
                rcases hentry with ⟨-, rfl⟩ | ⟨-, rfl⟩
                · exact ⟨_, .inl rfl, rfl⟩
                · exact ⟨_, .inr rfl, rfl⟩
              obtain ⟨mode, hmode, rfl⟩ := hmode
              obtain ⟨update, hupdater, hupdate⟩ := updater_ofDirective (σ := σ) hmode
              have hbind (l : Nat) : (standard start forwarded data : Compiler σ).bind l node
                  expression mode = (standard start forwarded data).bindWith l (some update) node
                    expression mode :=
                congrArg (fun update? => bindWith _ l update? node expression mode) hupdater
              rw [Directive.ofMode, Directive.ofMode, hbind, hbind,
                bindWith_limit start forwarded data limit limit' (hupdate node expression)]

/-- The visit of a node recomputes nothing. -/
theorem compileNode_limit :
    (standard start forwarded data : Compiler σ).compileNode limit =
      (standard start forwarded data).compileNode limit' := by
  funext node
  unfold compileNode
  congr 1
  funext cell?
  cases cell? with
  | none => rfl
  | some cell =>
      cases cell with
      | element tag attributes children =>
          dsimp only
          rw [compileAttributes_limit start forwarded data limit limit']
      | text text =>
          dsimp only
          unfold compileText
          cases Interpolation.find? text with
          | none => rfl
          | some found =>
              let update : Updater σ := Updater.within found.before found.after Updater.text
              have hupdate : update node = fun value =>
                  .edit fun dom => dom.setText node (found.render value.display) := rfl
              have hbind := bindWith_limit start forwarded data limit limit' hupdate
                found.expression "text"
              exact congrArg (fun binding : Session σ CompileError Binding =>
                Session.report (.text found.expression) >>= fun _ =>
                  binding >>= fun binding => pure [binding]) hbind
      | comment text => rfl
      | document children => rfl

end Limits

/-! ## Enough levels -/

/-- With enough levels a session has an outcome, and the same one with any more. -/
def Ends {α : Type} (session : Nat → Session σ CompileError α) (s : Store σ) : Prop :=
  ∃ outcome t levels, ∀ more, levels ≤ more → session more s = some (outcome, t)

section Levels

variable {α : Type} {visit : NodeId → Session σ CompileError (List α)} {s t : Store σ}
  {first second : Nat → Session σ CompileError (List α)}

theorem Ends.of_eq_some {session : Session σ CompileError (List α)}
    {outcome : Except CompileError (List α)} (h : session s = some (outcome, t)) :
    Ends (fun _ => session) s :=
  ⟨outcome, t, 0, fun _ _ => h⟩

theorem Ends.append (h : Ends first s)
    (hsecond : ∀ levels own t, first levels s = some (.ok own, t) → Ends second t) :
    Ends (fun levels => do
      let own ← first levels
      let others ← second levels
      pure (own ++ others)) s := by
  obtain ⟨outcome, t, levels, hfirst⟩ := h
  cases outcome with
  | error e =>
      exact ⟨.error e, t, levels, fun more hmore =>
        bind_append_eq_some.2 (.inl ⟨e, hfirst more hmore, rfl⟩)⟩
  | ok own =>
      obtain ⟨outcome, u, levels', hrest⟩ := hsecond levels own t (hfirst levels (Nat.le_refl _))
      refine ⟨outcome.map (own ++ ·), u, max levels levels', fun more hmore =>
        bind_append_eq_some.2 (.inr ⟨own, t, outcome, hfirst more ?_, hrest more ?_, rfl⟩)⟩
      · exact Nat.le_trans (Nat.le_max_left _ _) hmore
      · exact Nat.le_trans (Nat.le_max_right _ _) hmore

/-- The walk below a node takes one level more than those below its children. -/
theorem Ends.below {node : NodeId}
    (h : Ends (fun levels => forEach (descend visit levels) (s.dom.childrenOf node)) s) :
    Ends (fun levels => walk visit levels node) s := by
  obtain ⟨outcome, t, levels, hrun⟩ := h
  refine ⟨outcome, t, levels + 1, fun more hmore => ?_⟩
  obtain ⟨less, rfl⟩ : ∃ less, more = less + 1 := ⟨more - 1, by omega⟩
  dsimp only
  rw [walk_succ]
  exact hrun less (Nat.le_of_succ_le_succ hmore)

theorem Ends.below_leaf {node : NodeId} (h : s.dom.childrenOf node = []) :
    Ends (fun levels => walk visit levels node) s := by
  refine .below ?_
  rw [h]
  exact .of_eq_some rfl

end Levels

variable {start : String} {forwarded : Option (List String)} {data : ObjectId} {limit : Nat}
  {s t : Store σ} {node : NodeId}

/-- The visit of a node that is there always has an outcome. -/
theorem visit_ends {cell : NodeCell} (hcell : s.dom.cell? node = some cell) :
    Ends (fun _ => (standard start forwarded data).compileNode limit node) s := by
  obtain ⟨outcome, t, hvisit, -⟩ := compileNode_binds start forwarded data limit hcell
  exact .of_eq_some hvisit

/-- Whatever a text reads, there is nothing below it. -/
theorem text_ends {now : String} (hcell : s.dom.cell? node = some (.text now)) :
    Ends (fun levels =>
      descend ((standard start forwarded data).compileNode limit) levels node) s := by
  refine (visit_ends hcell).append fun _ own t hvisit => ?_
  have hbinds := binds_of_compileNode start forwarded data limit hcell hvisit
  have hheads : s.dom.SameHeads t.dom :=
    hbinds.keeps_dom .refl .trans fun place _ => place.sameHeads_paint
  obtain ⟨later, hlater⟩ := Dom.SameHeads.text hheads hcell
  exact .below_leaf (Dom.childrenOf_of_cell? hlater)

/-- The walk below an element that shows a text binds this text at most. -/
theorem shown_ends {base : Nat} {text : String}
    (hnodes : s.dom.HoldsText base text (s.dom.childrenOf node)) :
    Ends (fun levels => walk ((standard start forwarded data).compileNode limit) levels node)
      s := by
  generalize hchildren : s.dom.childrenOf node = nodes at hnodes
  cases hnodes with
  | empty => exact .below_leaf hchildren
  | filled _ _ hchild =>
      refine .below ?_
      rw [hchildren]
      exact (text_ends hchild).append fun _ _ _ _ => .of_eq_some rfl

end Compiler

end LiveTemplate
