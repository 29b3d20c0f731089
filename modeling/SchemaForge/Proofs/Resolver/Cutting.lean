import SchemaForge.Proofs.Resolver.Forest
import SchemaForge.Resolver.Filter
set_option autoImplicit false

/-!
# Cutting nodes out of a forest

Someone is asked about the nodes of a forest from the top down. A node that is not accepted is cut
out with everything below it, about which nobody is asked. What has been asked, what is kept and
what is absent then can be read off the forest in which the cuts are marked.

## Main definitions

* `SchemaForge.Cutting` — a forest in which some nodes are cut.
* `SchemaForge.Cutting.calls`, `SchemaForge.Cutting.remains`, `SchemaForge.Cutting.absent` — the
  questions with their answers, the forest that is kept, and what is not in it.
* `SchemaForge.Forest.judge` — the forest with the cuts that come of asking.
* `SchemaForge.Keeper.traced` — a keeper that writes its calls down.

## Main results

* `SchemaForge.Forest.run_judge_append` — a forest is judged from left to right.
* `SchemaForge.Keeper.judge_traced` — the calls that are written down.
-/

namespace SchemaForge

/-! ### Forests with cuts -/

/-- A forest in which some nodes are cut. Of these and of what is below them nothing is kept. -/
inductive Cutting (α : Type) where
  | nil
  | cut (label : α) (below : Forest α) (rest : Cutting α)
  | kept (label : α) (below rest : Cutting α)

namespace Cutting

variable {α : Type}

/-- The forest without cuts. -/
def whole : Cutting α → Forest α
  | nil => .nil
  | cut label below rest => .node label below rest.whole
  | kept label below rest => .node label below.whole rest.whole

/-- The nodes with nothing cut above them, each before those below it, and whether they are kept. -/
def calls : Cutting α → List (α × Bool)
  | nil => []
  | cut label _ rest => (label, false) :: rest.calls
  | kept label below rest => (label, true) :: (below.calls ++ rest.calls)

/-- The forest that is kept. -/
def remains : Cutting α → Forest α
  | nil => .nil
  | cut _ _ rest => rest.remains
  | kept label below rest => .node label below.remains rest.remains

/-- What is not kept: the nodes that are cut, and all that is below them. -/
def absent : Cutting α → List α
  | nil => []
  | cut label below rest => label :: (below.labels ++ rest.absent)
  | kept _ below rest => below.absent ++ rest.absent

/-- The nodes that are kept are those that have been asked about and accepted, in order. -/
theorem labels_remains (c : Cutting α) :
    c.remains.labels = (c.calls.filter Prod.snd).map Prod.fst := by
  induction c with
  | nil => rfl
  | cut label below rest ih => simpa [remains, calls] using ih
  | kept label below rest ihBelow ihRest =>
    simp [remains, calls, Forest.labels, ihBelow, ihRest]

/-- Questions are asked in the order of the forest. -/
theorem calls_sublist (c : Cutting α) : (c.calls.map Prod.fst).Sublist c.whole.labels := by
  induction c with
  | nil => exact .slnil
  | cut label below rest ih =>
    exact .cons_cons label (ih.trans (List.sublist_append_right below.labels _))
  | kept label below rest ihBelow ihRest =>
    rw [calls, List.map_cons, List.map_append]
    exact .cons_cons label (ihBelow.append ihRest)

/-- Every node is kept or absent. -/
theorem absent_perm (c : Cutting α) : (c.absent ++ c.remains.labels).Perm c.whole.labels := by
  induction c with
  | nil => exact .nil
  | cut label below rest ih =>
    rw [absent, List.cons_append, List.append_assoc]
    exact .cons label (ih.append_left below.labels)
  | kept label below rest ihBelow ihRest =>
    calc below.absent ++ rest.absent ++ label :: (below.remains.labels ++ rest.remains.labels)
      _ |>.Perm (label :: (below.absent ++ rest.absent ++
            (below.remains.labels ++ rest.remains.labels))) := List.perm_middle
      _ |>.Perm (label :: (below.absent ++ below.remains.labels ++
            (rest.absent ++ rest.remains.labels))) := by
          simp only [List.append_assoc]
          exact ((List.perm_append_comm_assoc _ _ _).append_left _).cons label
      _ |>.Perm (label :: (below.whole.labels ++ rest.whole.labels)) :=
          .cons label (ihBelow.append ihRest)

/-- Where all are accepted nothing is absent. -/
theorem absent_eq_nil {c : Cutting α} (h : ∀ call ∈ c.calls, call.2 = true) : c.absent = [] := by
  induction c with
  | nil => rfl
  | cut label below rest _ => simp [calls] at h
  | kept label below rest ihBelow ihRest =>
    simp only [calls, List.forall_mem_cons, List.forall_mem_append] at h
    rw [absent, ihBelow h.2.1, ihRest h.2.2]
    rfl

/-- Where all are accepted the forest is kept as it is. -/
theorem remains_eq_whole {c : Cutting α} (h : ∀ call ∈ c.calls, call.2 = true) :
    c.remains = c.whole := by
  induction c with
  | nil => rfl
  | cut label below rest _ => simp [calls] at h
  | kept label below rest ihBelow ihRest =>
    simp only [calls, List.forall_mem_cons, List.forall_mem_append] at h
    rw [remains, whole, ihBelow h.2.1, ihRest h.2.2]

/-- The trees of the first forest with cuts, then those of the second one. -/
def append : Cutting α → Cutting α → Cutting α
  | nil, d => d
  | cut label below rest, d => cut label below (rest.append d)
  | kept label below rest, d => kept label below (rest.append d)

instance : Append (Cutting α) := ⟨append⟩

theorem cut_append (label : α) (below : Forest α) (rest d : Cutting α) :
    cut label below rest ++ d = cut label below (rest ++ d) := rfl

theorem kept_append (label : α) (below rest d : Cutting α) :
    kept label below rest ++ d = kept label below (rest ++ d) := rfl

@[simp] theorem remains_append (c d : Cutting α) :
    (c ++ d).remains = c.remains ++ d.remains := by
  induction c with
  | nil => rfl
  | cut label below rest ih => simpa [cut_append, remains] using ih
  | kept label below rest _ ih => simp [kept_append, remains, ih]

@[simp] theorem absent_append (c d : Cutting α) : (c ++ d).absent = c.absent ++ d.absent := by
  induction c with
  | nil => rfl
  | cut label below rest ih => simp [cut_append, absent, ih]
  | kept label below rest _ ih => simp [kept_append, absent, ih]

end Cutting

/-! ### Judging a forest -/

namespace Forest

variable {α σ : Type}

/-- The forest with the cuts that come of asking about its nodes. Of a node that is not accepted
nothing below is asked about. -/
def judge (ask : α → StateM σ Bool) : Forest α → StateM σ (Cutting α)
  | nil => pure .nil
  | node label below rest => do
    if ← ask label then return .kept label (← below.judge ask) (← rest.judge ask)
    else return .cut label below (← rest.judge ask)

variable {ask : α → StateM σ Bool}

/-- A node that is accepted is kept; what is below it is judged, and then the other trees. -/
theorem run_judge_of_accepted {label : α} {memory next : σ}
    (h : (ask label).run memory = (true, next)) (below rest : Forest α) :
    ((node label below rest).judge ask).run memory =
      (.kept label ((below.judge ask).run next).1
          ((rest.judge ask).run ((below.judge ask).run next).2).1,
        ((rest.judge ask).run ((below.judge ask).run next).2).2) := by
  rw [judge, StateT.run_bind, h]
  rfl

/-- A node that is not accepted is cut, and the other trees are judged. -/
theorem run_judge_of_rejected {label : α} {memory next : σ}
    (h : (ask label).run memory = (false, next)) (below rest : Forest α) :
    ((node label below rest).judge ask).run memory =
      (.cut label below ((rest.judge ask).run next).1, ((rest.judge ask).run next).2) := by
  rw [judge, StateT.run_bind, h]
  rfl

variable (ask)

/-- Without the cuts the forest is the one that was judged. -/
theorem whole_judge (f : Forest α) (memory : σ) : ((f.judge ask).run memory).1.whole = f := by
  induction f generalizing memory with
  | nil => rfl
  | node label below rest ihBelow ihRest =>
    rcases hask : (ask label).run memory with ⟨_ | _, next⟩
    · rw [run_judge_of_rejected hask, Cutting.whole, ihRest]
    · rw [run_judge_of_accepted hask, Cutting.whole, ihBelow, ihRest]

/-- **Order.** Of two forests side by side the first one is judged first. -/
theorem run_judge_append (f g : Forest α) (memory : σ) :
    ((f ++ g).judge ask).run memory =
      (((f.judge ask).run memory).1 ++ ((g.judge ask).run ((f.judge ask).run memory).2).1,
        ((g.judge ask).run ((f.judge ask).run memory).2).2) := by
  induction f generalizing memory with
  | nil => rfl
  | node label below rest _ ih =>
    rw [node_append]
    rcases hask : (ask label).run memory with ⟨_ | _, next⟩
    · rw [run_judge_of_rejected hask, run_judge_of_rejected hask, ih, Cutting.cut_append]
    · rw [run_judge_of_accepted hask, run_judge_of_accepted hask, ih, Cutting.kept_append]

end Forest

/-! ### Keepers -/

namespace Keeper

variable {σ : Type} (keeper : Keeper σ)

/-- The keeper is asked about the node of a place. -/
def askAt (site : Site) : StateM σ Bool := keeper site.node ()

/-- The forest of a schema with the cuts that come of asking the keeper, and what it remembers in
the end. -/
def judge (f : Forest Site) (memory : σ) : Cutting Site × σ := (f.judge keeper.askAt).run memory

variable {keeper} in
/-- Of a tree whose root is accepted, what is below it is judged. -/
theorem judge_tree_of_accepted {site : Site} {below : Forest Site} {memory next : σ}
    (h : (keeper.askAt site).run memory = (true, next)) :
    keeper.judge (.tree site below) memory =
      (.kept site (keeper.judge below next).1 .nil, (keeper.judge below next).2) :=
  Forest.run_judge_of_accepted h below .nil

variable {keeper} in
/-- A tree whose root is rejected is cut. -/
theorem judge_tree_of_rejected {site : Site} {below : Forest Site} {memory next : σ}
    (h : (keeper.askAt site).run memory = (false, next)) :
    keeper.judge (.tree site below) memory = (.cut site below .nil, next) :=
  Forest.run_judge_of_rejected h below .nil

/-- Of two forests side by side the keeper judges the first one first. -/
theorem judge_append (f g : Forest Site) (memory : σ) :
    keeper.judge (f ++ g) memory =
      ((keeper.judge f memory).1 ++ (keeper.judge g (keeper.judge f memory).2).1,
        (keeper.judge g (keeper.judge f memory).2).2) :=
  Forest.run_judge_append keeper.askAt f g memory

/-- The keeper that writes down which nodes it is asked about, and what it says. -/
def traced : Keeper (σ × List (Node × Bool)) := fun node _ (memory, calls) =>
  let (accepted, memory) := keeper node () memory
  (accepted, memory, calls ++ [(node, accepted)])

/-- A question is written down with its answer. -/
theorem run_askAt_traced {site : Site} {memory next : σ} {accepted : Bool}
    (h : (keeper.askAt site).run memory = (accepted, next)) (calls : List (Node × Bool)) :
    (keeper.traced.askAt site).run (memory, calls) =
      (accepted, next, calls ++ [(site.node, accepted)]) := by
  have hrun : (keeper.traced.askAt site).run (memory, calls) =
      (((keeper.askAt site).run memory).1, ((keeper.askAt site).run memory).2,
        calls ++ [(site.node, ((keeper.askAt site).run memory).1)]) := rfl
  rw [hrun, h]

/-- **Calls.** A keeper that writes down its calls judges as it does without this, and has then
written down the questions and their answers.

**Proof sketch.** Induction on the forest. The question about a node is written down first, then
those below it if it is accepted, then those about the other trees. -/
theorem judge_traced (f : Forest Site) (memory : σ) (calls : List (Node × Bool)) :
    keeper.traced.judge f (memory, calls) =
      ((keeper.judge f memory).1, (keeper.judge f memory).2,
        calls ++ (keeper.judge f memory).1.calls.map fun call => (call.1.node, call.2)) := by
  unfold judge
  induction f generalizing memory calls with
  | nil => exact congrArg (fun all => (Cutting.nil, memory, all)) (List.append_nil calls).symm
  | node site below rest ihBelow ihRest =>
    rcases hask : (keeper.askAt site).run memory with ⟨_ | _, next⟩
    · rw [Forest.run_judge_of_rejected hask,
        Forest.run_judge_of_rejected (keeper.run_askAt_traced hask calls), ihRest]
      simp only [Cutting.calls, List.map_cons, List.append_assoc, List.singleton_append]
    · rw [Forest.run_judge_of_accepted hask,
        Forest.run_judge_of_accepted (keeper.run_askAt_traced hask calls), ihBelow, ihRest]
      simp only [Cutting.calls, List.map_cons, List.map_append, List.append_assoc,
        List.cons_append, List.nil_append]

end Keeper

end SchemaForge
