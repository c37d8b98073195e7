import Glove.Lib.Outcome
import Glove.ReadyQueue

/-! # The ready queue holds its tasks in order

The lists behind `_head_node` and `_free_node` share out the cells. Each call is an operation on the list of tasks, and
reads through a null pointer exactly where that operation fails. -/

namespace Glove.Nrk

/-! ## The representation -/

/-- The cells `is` are the queue, and the cells `js` are free. -/
structure ReadyQ.Shape (q : ReadyQ) (is js : List NodeRef) : Prop where
  head : q.headNode = is.head?
  linked : q.nodes.Linked none is none
  free : q.freeNode = js.head?
  chain : q.nodes.Chain js
  nodup : (is ++ js).Nodup
  length : is.length + js.length = maxTasks + 1

/-- The tasks in the cells `is`. -/
def ReadyQ.tasks (q : ReadyQ) (is : List NodeRef) : List TaskId := is.map fun i => (q.nodes i).value

section Tasks
variable {q q' : ReadyQ} {i : NodeRef} {is js : List NodeRef}

@[simp] theorem tasks_nil : q.tasks [] = [] := rfl

@[simp] theorem tasks_cons : q.tasks (i :: is) = (q.nodes i).value :: q.tasks is := rfl

@[simp] theorem tasks_append : q.tasks (is ++ js) = q.tasks is ++ q.tasks js := List.map_append

theorem tasks_congr (heq : ∀ i ∈ is, (q'.nodes i).value = (q.nodes i).value) : q'.tasks is = q.tasks is :=
  List.map_congr_left heq

/-- A cell that was free is the only one to get another task. -/
theorem tasks_insert (is js : List NodeRef) {c : NodeRef} {task : TaskId} (hc : (q'.nodes c).value = task)
    (heq : ∀ i, i ≠ c → (q'.nodes i).value = (q.nodes i).value) (hmem : c ∉ is ++ js) :
    q'.tasks (is ++ c :: js) = q.tasks is ++ task :: q.tasks js := by
  have hne : ∀ i ∈ is ++ js, i ≠ c := fun i hi h => hmem (h ▸ hi)
  have his : q'.tasks is = q.tasks is := tasks_congr fun i hi => heq i (hne i (List.mem_append_left js hi))
  have hjs : q'.tasks js = q.tasks js := tasks_congr fun i hi => heq i (hne i (List.mem_append_right is hi))
  rw [tasks_append, tasks_cons, hc, his, hjs]

end Tasks

/-- The queue holds the tasks `ts`, in this order. -/
def ReadyQ.Reps (q : ReadyQ) (ts : List TaskId) : Prop := ∃ is js, q.Shape is js ∧ q.tasks is = ts

theorem reps_init : ReadyQ.init.Reps [] :=
  ⟨[], List.finRange (maxTasks + 1), ⟨rfl, trivial, rfl, by decide, by decide, rfl⟩, rfl⟩

theorem ReadyQ.Reps.getHighReadyTaskID {q : ReadyQ} {ts : List TaskId} (h : q.Reps ts) :
    getHighReadyTaskID q = match ts.head? with
      | some t => .ok t
      | none => .error .nullPointer := by
  obtain ⟨is, js, hs, rfl⟩ := h
  rw [Nrk.getHighReadyTaskID, hs.head]
  cases is <;> rfl

/-! ## Loops -/

section Search
variable {q : ReadyQ} {is js : List NodeRef}

theorem ReadyQ.Shape.search_eq (hs : q.Shape is js) (stop : TaskId → Bool) :
    search q.nodes stop q.headNode = .ok (is.find? fun i => stop (q.nodes i).value) := by
  have hlen : is.length ≤ maxTasks + 1 := hs.length ▸ Nat.le_add_right _ _
  rw [search, hs.head, hs.linked.chain.seek_eq hlen]

/-- Where the loop ends at a cell, none before it is one to stop at. -/
theorem find_split (q : ReadyQ) (stop : TaskId → Bool) {y : NodeRef}
    (hfind : is.find? (fun i => stop (q.nodes i).value) = some y) :
    ∃ xs zs, is = xs ++ y :: zs ∧ stop (q.nodes y).value = true ∧ ∀ t ∈ q.tasks xs, stop t = false := by
  obtain ⟨hy, xs, zs, rfl, hxs⟩ := List.find?_eq_some_iff_append.mp hfind
  refine ⟨xs, zs, rfl, hy, fun t ht => ?_⟩
  obtain ⟨i, hi, rfl⟩ := List.mem_map.mp ht
  simpa using hxs i hi

theorem find_none (q : ReadyQ) (stop : TaskId → Bool) (hfind : is.find? (fun i => stop (q.nodes i).value) = none) :
    ∀ t ∈ q.tasks is, stop t = false := by
  intro t ht
  obtain ⟨i, hi, rfl⟩ := List.mem_map.mp ht
  simpa using List.find?_eq_none.mp hfind i hi

end Search

/-! ## Adding a task -/

theorem orderedInsert_split {α : Type} {r : α → α → Prop} [DecidableRel r] {a v : α} {us vs : List α}
    (hus : ∀ u ∈ us, ¬r a u) (hv : r a v) : (us ++ v :: vs).orderedInsert r a = us ++ a :: v :: vs := by
  induction us with
  | nil => simp [hv]
  | cons u us ih =>
    rw [List.cons_append, List.orderedInsert, if_neg (hus u List.mem_cons_self),
      ih fun w hw => hus w (List.mem_cons_of_mem _ hw)]
    rfl

section Add
variable {q : ReadyQ} {is js : List NodeRef} {c : NodeRef} {tcb : TcbTable} {task : TaskId}

theorem ReadyQ.Shape.addToReadyQ_eq (hs : q.Shape is (c :: js)) :
    addToReadyQ tcb task q = insertNode task c (is.find? fun i => outranks tcb task (q.nodes i).value) q := by
  simp only [addToReadyQ, hs.free, List.head?_cons, hs.search_eq]
  rfl

/-- A task that comes to an empty queue. -/
theorem insertNode_empty (task : TaskId) (hs : q.Shape [] (c :: js)) :
    ∃ q', insertNode task c none q = .ok q' ∧ q'.Reps [task] := by
  obtain ⟨f, fs, rfl⟩ : ∃ f fs, js = f :: fs := by
    cases js with
    | nil => cases hs.length
    | cons f fs => exact ⟨f, fs, rfl⟩
  have hfree : (q.nodes c).next = some f := hs.chain.1
  have hnodup := hs.nodup
  refine ⟨{ nodes := (((q.nodes.setValue c task).setNext c none).setPrev c none).setPrev f (some c)
            headNode := some c, freeNode := some f }, ?_, [c], f :: fs, ⟨rfl, ?_, rfl, ?_, hnodup, ?_⟩, ?_⟩
  · simp [insertNode, hs.head, hfree, deref, bind, Except.bind]
  · exact ⟨by grind, by simp, trivial⟩
  · exact hs.chain.2.congr fun j hj => by grind
  · rw [← hs.length]
    simp only [List.length_cons, List.length_nil]
    omega
  · simp

/-- A task that goes to the front. -/
theorem insertNode_front (task : TaskId) {y : NodeRef} {zs : List NodeRef} (hs : q.Shape (y :: zs) (c :: js)) :
    ∃ q', insertNode task c (some y) q = .ok q' ∧ q'.Reps (task :: q.tasks (y :: zs)) := by
  have hnodup := hs.nodup
  have hlen := hs.length
  refine ⟨{ nodes := (((q.nodes.setValue c task).setNext c (some y)).setPrev c none).setPrev y (some c)
            headNode := some c, freeNode := js.head? }, ?_, c :: y :: zs, js, ⟨rfl, ?_, rfl, ?_, ?_, ?_⟩, ?_⟩
  · simp [insertNode, hs.head, hs.chain.1]
  · refine Cells.Linked.push (h := q.nodes.setValue c task) (hs.linked.congr fun j _ => ?_) ?_ ?_ rfl
    · simp
    · grind
    · grind
  · exact hs.chain.2.congr fun j hj => by grind
  · grind
  · grind
  · refine tasks_insert [] (y :: zs) (by simp) (fun i hi => ?_) (by grind)
    simp [hi]

/-- A task that goes between two others. -/
theorem insertNode_middle (task : TaskId) {x y : NodeRef} {xs zs : List NodeRef}
    (hs : q.Shape (xs ++ x :: y :: zs) (c :: js)) :
    ∃ q', insertNode task c (some y) q = .ok q' ∧ q'.Reps (q.tasks (xs ++ [x]) ++ task :: q.tasks (y :: zs)) := by
  have hnodup := hs.nodup
  have hlen := hs.length
  have hprev : (q.nodes y).prev = some x := (Cells.linked_middle.mp hs.linked).2.2.2.1
  have hcy : y ≠ c := by grind
  have hhead : some y ≠ q.headNode := by
    rw [hs.head]
    cases xs <;> grind
  have hfree : some y ≠ js.head? := by
    cases js <;> grind
  refine ⟨{ nodes := ((((q.nodes.setValue c task).setPrev c (some x)).setNext c (some y)).setNext x (some c)).setPrev y
              (some c)
            headNode := q.headNode, freeNode := js.head? }, ?_, xs ++ x :: c :: y :: zs, js, ⟨?_, ?_, rfl, ?_, ?_, ?_⟩, ?_⟩
  · simp [insertNode, hs.chain.1, hhead, hfree, deref, hprev, hcy, bind, Except.bind]
  · rw [hs.head]
    cases xs <;> rfl
  · refine Cells.Linked.insert (h := q.nodes.setValue c task) (hs.linked.congr fun j _ => ?_) ?_ ?_ rfl
    · simp
    · grind
    · grind
  · exact hs.chain.2.congr fun j hj => by grind
  · grind
  · grind
  · rw [show xs ++ x :: c :: y :: zs = (xs ++ [x]) ++ c :: y :: zs by simp]
    refine tasks_insert (xs ++ [x]) (y :: zs) (by simp) (fun i hi => ?_) (by grind)
    simp [hi]

/-- A task that goes behind others: the cell in front of which it is put is the null pointer, or the one behind the last
    free cell is. -/
theorem insertNode_last {y : NodeRef} {zs : List NodeRef} (hs : q.Shape (y :: zs) (c :: js)) :
    insertNode task c none q = .error .nullPointer := by
  cases js <;> simp [insertNode, hs.head, hs.chain.1, deref, bind, Except.bind]

end Add

/-! ## Removing a task -/

section Remove
variable {q : ReadyQ} {is js : List NodeRef} {task : TaskId}

/-- The cell that `nrk_rem_from_readyQ` unlinked becomes the first free one. -/
theorem release_reps (q : ReadyQ) (is : List NodeRef) (c : NodeRef)
    (hhead : q.headNode = is.head?) (hlinked : q.nodes.Linked none is none) (hfree : q.freeNode = js.head?)
    (hchain : q.nodes.Chain js) (hnodup : (is ++ c :: js).Nodup) (hlen : is.length + (c :: js).length = maxTasks + 1) : (q.release c).Reps (q.tasks is) := by
  refine ⟨is, c :: js, ⟨hhead, hlinked.congr fun i hi => ?_, rfl, ?_, hnodup, hlen⟩, tasks_congr fun i _ => ?_⟩
  · cases js <;> simp [ReadyQ.release, hfree] <;> grind
  · cases js with
    | nil => simp [ReadyQ.release, hfree, Cells.Chain]
    | cons f fs => exact ⟨by simp [ReadyQ.release, hfree], hchain.congr fun j hj => by simp [ReadyQ.release, hfree]; grind⟩
  · cases js <;> simp [ReadyQ.release, hfree]

/-- The task in front, with another behind it. -/
theorem remFromReadyQ_front {y z : NodeRef} {zs : List NodeRef} (hs : q.Shape (y :: z :: zs) js) :
    ∃ q', remFromReadyQ (some (q.nodes y).value) q = .ok q' ∧ q'.Reps (q.tasks (z :: zs)) := by
  have hnodup := hs.nodup
  have hlen := hs.length
  have hz : (q.nodes y).next = some z := hs.linked.2.1
  refine ⟨ReadyQ.release { q with nodes := q.nodes.setPrev z none, headNode := some z } y, ?_, ?_⟩
  · simp [remFromReadyQ, hs.head, hz, deref, bind, Except.bind]
  · have hrep := release_reps { q with nodes := q.nodes.setPrev z none, headNode := some z } (z :: zs) y rfl
      (hs.linked.pop (by grind)) hs.free (hs.chain.congr fun j _ => by simp) (by grind) (by grind)
    rwa [tasks_congr (q := q) fun i _ => by simp] at hrep

theorem remFromReadyQ_sole {y : NodeRef} (hs : q.Shape [y] js) :
    remFromReadyQ (some (q.nodes y).value) q = .error .nullPointer := by
  have hz : (q.nodes y).next = none := hs.linked.2.1
  simp [remFromReadyQ, hs.head, hz, deref, bind, Except.bind]

/-- The loop looks for a task that is not in front. -/
theorem remFromReadyQ_eq {y : NodeRef} {zs : List NodeRef} (hs : q.Shape (y :: zs) js) (hy : (q.nodes y).value ≠ task) :
    remFromReadyQ (some task) q =
      ((y :: zs).find? fun i => decide ((q.nodes i).value = task)).elim (.ok q) fun c => unlinkNode c q := by
  have hsearch := hs.search_eq fun t => decide (some t = some task)
  rw [hs.head, List.head?_cons] at hsearch
  simp only [remFromReadyQ, hs.head, List.head?_cons, Option.some.injEq, if_neg hy] at hsearch ⊢
  rw [hsearch]
  cases (y :: zs).find? fun i => decide ((q.nodes i).value = task) <;> rfl

/-- A task behind the one in front. -/
theorem unlinkNode_reps {x c : NodeRef} {xs zs : List NodeRef} (hs : q.Shape (xs ++ x :: c :: zs) js) :
    ∃ q', unlinkNode c q = .ok q' ∧ q'.Reps (q.tasks (xs ++ x :: zs)) := by
  have hnodup := hs.nodup
  have hlen := hs.length
  obtain ⟨-, -, -, hprev, hnext, -⟩ := Cells.linked_middle.mp hs.linked
  have hcx : c ≠ x := by grind
  have hhead : q.headNode = (xs ++ x :: zs).head? := by
    rw [hs.head]
    cases xs <;> rfl
  cases zs with
  | nil =>
    refine ⟨ReadyQ.release { q with nodes := q.nodes.setNext x none } c, ?_, ?_⟩
    · simp [unlinkNode, hprev, hnext, hcx, deref, bind, Except.bind]
    · have hrep := release_reps { q with nodes := q.nodes.setNext x none } (xs ++ [x]) c hhead
        (hs.linked.unlink_last (by grind)) hs.free (hs.chain.congr fun j hj => by grind) (by grind) (by grind)
      rwa [tasks_congr (q := q) fun i _ => by simp] at hrep
  | cons z zs =>
    refine ⟨ReadyQ.release { q with nodes := (q.nodes.setNext x (some z)).setPrev z (some x) } c, ?_, ?_⟩
    · simp [unlinkNode, hprev, hnext, hcx, deref, bind, Except.bind]
    · have hrep := release_reps { q with nodes := (q.nodes.setNext x (some z)).setPrev z (some x) }
        (xs ++ x :: z :: zs) c hhead (hs.linked.unlink (by grind)) hs.free
        (hs.chain.congr fun j hj => by grind) (by grind) (by grind)
      rwa [tasks_congr (q := q) fun i _ => by simp] at hrep

end Remove

/-! ## Refinement -/

theorem add_refines {q : ReadyQ} {ts : List TaskId} (h : q.Reps ts) (tcb : TcbTable) (task : TaskId) :
    SameOutcome ReadyQ.Reps (addToReadyQ tcb task q) ((QueueOp.add tcb task).spec ts) := by
  obtain ⟨is, js, hs, rfl⟩ := h
  cases js with
  | nil =>
    have hlen : (q.tasks is).length = maxTasks + 1 := by simpa [ReadyQ.tasks] using hs.length
    rw [QueueOp.spec, if_pos hlen, addToReadyQ, hs.free]
    exact ⟨is, [], hs, rfl⟩
  | cons c js =>
    have hlen : (q.tasks is).length ≠ maxTasks + 1 := by
      have := hs.length
      rw [ReadyQ.tasks, List.length_map]
      simp only [List.length_cons] at this
      omega
    rw [hs.addToReadyQ_eq, QueueOp.spec, if_neg hlen]
    cases hfind : is.find? fun i => outranks tcb task (q.nodes i).value with
    | none =>
      have hall := find_none q (outranks tcb task) hfind
      cases is with
      | nil =>
        obtain ⟨q', hq, hrep⟩ := insertNode_empty task hs
        rw [hq]
        exact hrep
      | cons y zs =>
        rw [insertNode_last hs, if_neg]
        · rfl
        · rintro (hnil | ⟨t, ht, hout⟩)
          · cases hnil
          · rw [hall t ht] at hout
            cases hout
    | some y =>
      obtain ⟨xs, zs, rfl, hy, hxs⟩ := find_split q (outranks tcb task) hfind
      have hsplit : (q.tasks (xs ++ y :: zs)).orderedInsert (fun a b => outranks tcb a b) task =
          q.tasks xs ++ task :: q.tasks (y :: zs) := by
        rw [tasks_append, tasks_cons]
        exact orderedInsert_split (fun u hu => by simp [hxs u hu]) hy
      rw [if_pos (.inr ⟨_, by simp [ReadyQ.tasks], hy⟩), hsplit]
      obtain rfl | ⟨xs, x, rfl⟩ := xs.eq_nil_or_concat'
      · obtain ⟨q', hq, hrep⟩ := insertNode_front task hs
        rw [hq]
        exact hrep
      · rw [List.append_assoc] at hs
        obtain ⟨q', hq, hrep⟩ := insertNode_middle task hs
        rw [hq]
        exact hrep

theorem rem_refines {q : ReadyQ} {ts : List TaskId} (h : q.Reps ts) (task : TaskId) :
    SameOutcome ReadyQ.Reps (remFromReadyQ (some task) q) ((QueueOp.rem task).spec ts) := by
  obtain ⟨is, js, hs, rfl⟩ := h
  cases is with
  | nil =>
    rw [remFromReadyQ, hs.head]
    exact ⟨[], js, hs, rfl⟩
  | cons y zs =>
    by_cases hy : (q.nodes y).value = task
    · subst hy
      cases zs with
      | nil =>
        rw [remFromReadyQ_sole hs]
        simp [QueueOp.spec, SameOutcome]
      | cons z zs =>
        obtain ⟨q', hq, hrep⟩ := remFromReadyQ_front hs
        rw [hq]
        simpa [QueueOp.spec, SameOutcome] using hrep
    · have hsole : q.tasks (y :: zs) ≠ [task] := fun h => hy (List.cons_eq_cons.mp h).1
      rw [remFromReadyQ_eq hs hy, QueueOp.spec, if_neg hsole]
      cases hfind : (y :: zs).find? fun i => decide ((q.nodes i).value = task) with
      | none =>
        have hall := find_none q (fun t => decide (t = task)) hfind
        have hmem : task ∉ q.tasks (y :: zs) := fun h => by simpa using hall task h
        rw [List.erase_of_not_mem hmem]
        exact ⟨y :: zs, js, hs, rfl⟩
      | some c =>
        obtain ⟨xs, ys, hsplit, hc, hxs⟩ := find_split q (fun t => decide (t = task)) hfind
        obtain rfl | ⟨xs, x, rfl⟩ := xs.eq_nil_or_concat'
        · obtain ⟨rfl, -⟩ := List.cons_eq_cons.mp hsplit
          exact absurd (of_decide_eq_true hc) hy
        · have hmem : task ∉ q.tasks (xs ++ [x]) := fun h => by simpa using hxs task h
          have herase : (q.tasks (y :: zs)).erase task = q.tasks (xs ++ x :: ys) := by
            rw [hsplit, tasks_append, tasks_cons, of_decide_eq_true hc, List.erase_append_right _ hmem,
              List.erase_cons_head]
            simp
          rw [herase]
          rw [hsplit, List.append_assoc] at hs
          obtain ⟨q', hq, hrep⟩ := unlinkNode_reps hs
          rw [Option.elim_some, hq]
          exact hrep

/-! ## Runs -/

theorem exec_refines {q : ReadyQ} {ts : List TaskId} (h : q.Reps ts) (op : QueueOp) :
    SameOutcome ReadyQ.Reps (op.exec q) (op.spec ts) :=
  match op with
  | .add tcb task => add_refines h tcb task
  | .rem task => rem_refines h task

/-- Every run of calls does to the linked list what it does to the list of tasks, and reads through a null pointer
    exactly where that fails. -/
theorem readyQ_refines (ops : List QueueOp) :
    SameOutcome ReadyQ.Reps (ops.foldlM QueueOp.exec ReadyQ.init) (ops.foldlM QueueOp.spec []) :=
  SameOutcome.foldlM (fun _ _ op h => exec_refines h op) reps_init ops

end Glove.Nrk
