import MockUas.Clib.Result

namespace clib

/-- The blocks of one type on the C heap. An address stays freed once its block is
freed, so that a pointer that outlives its block is told from every other. -/
structure Heap (A : Type) where
  cells : Nat → Option A
  next : Nat
  fresh : ∀ a, next ≤ a → cells a = none

/-- A singly linked list whose nodes are heap blocks, as the order of their addresses. -/
structure Store (A : Type) where
  list : List Nat
  heap : Heap A

/-- A heap block with only one pointer to it, kept with that pointer. -/
structure Owned (A : Type) where
  address : Nat
  contents : A
  deriving DecidableEq

namespace Heap

variable {A : Type}

theorem ext {h k : Heap A} (hcells : ∀ a, h.cells a = k.cells a) (hnext : h.next = k.next) : h = k := by
  obtain ⟨cells, next, fresh⟩ := h
  obtain ⟨cells', next', fresh'⟩ := k
  obtain rfl : cells = cells' := funext hcells
  obtain rfl : next = next' := hnext
  rfl

def empty : Heap A where
  cells _ := none
  next := 0
  fresh _ _ := rfl

/-- A read through a pointer. -/
def read (h : Heap A) (a : Nat) : Result A :=
  match h.cells a with
  | some v => ok v
  | none => error .useAfterFree

/-- A successful `malloc` whose block is then filled. -/
def alloc (h : Heap A) (v : A) : Heap A where
  cells a := if a = h.next then some v else h.cells a
  next := h.next + 1
  fresh a ha := by
    rw [if_neg (by omega)]
    exact h.fresh a (by omega)

def free (h : Heap A) (a : Nat) : Heap A where
  cells b := if b = a then none else h.cells b
  next := h.next
  fresh b hb := by
    split
    · rfl
    · exact h.fresh b hb

/-- A write to a live block. -/
def set (h : Heap A) (a : Nat) (v : A) : Heap A where
  cells b := if b = a then (h.cells a).map fun _ => v else h.cells b
  next := h.next
  fresh b hb := by
    split
    · rename_i hba
      rw [← hba, h.fresh b hb]
      rfl
    · exact h.fresh b hb

/-- A write to every live block. -/
def map (h : Heap A) (f : Nat → A → A) : Heap A where
  cells a := (h.cells a).map (f a)
  next := h.next
  fresh a ha := by rw [h.fresh a ha, Option.map_none]

theorem read_eq_ok_iff {h : Heap A} {a : Nat} {v : A} : h.read a = ok v ↔ h.cells a = some v := by
  unfold read
  split <;> rename_i hcell <;> simp [hcell]

theorem read_of_cells {h : Heap A} {a : Nat} {v : A} (hcell : h.cells a = some v) : h.read a = ok v :=
  read_eq_ok_iff.mpr hcell

theorem lt_next_of_cells {h : Heap A} {a : Nat} {v : A} (hcell : h.cells a = some v) : a < h.next := by
  refine Nat.lt_of_not_le fun hle => ?_
  rw [h.fresh a hle] at hcell
  cases hcell

instance (h : Heap A) (P : Nat → A → Prop) [∀ a v, Decidable (P a v)] :
    Decidable (∀ a v, h.cells a = some v → P a v) :=
  decidable_of_iff (∀ a < h.next, ∀ v ∈ h.cells a, P a v)
    ⟨fun hall a v hcell => hall a (lt_next_of_cells hcell) v hcell, fun hall a _ v hcell => hall a v hcell⟩

@[simp] theorem cells_next (h : Heap A) : h.cells h.next = none := h.fresh _ (Nat.le_refl _)

@[simp] theorem cells_empty (a : Nat) : (empty : Heap A).cells a = none := rfl

@[simp] theorem next_alloc (h : Heap A) (v : A) : (h.alloc v).next = h.next + 1 := rfl

@[simp] theorem next_free (h : Heap A) (a : Nat) : (h.free a).next = h.next := rfl

theorem cells_alloc (h : Heap A) (v : A) (b : Nat) :
    (h.alloc v).cells b = if b = h.next then some v else h.cells b := rfl

@[simp] theorem cells_alloc_self (h : Heap A) (v : A) : (h.alloc v).cells h.next = some v := by
  simp [cells_alloc]

theorem cells_alloc_of_cells {h : Heap A} {v w : A} {b : Nat} (hcell : h.cells b = some w) :
    (h.alloc v).cells b = some w := by
  have hlt := lt_next_of_cells hcell
  rw [cells_alloc, if_neg (by omega), hcell]

theorem cells_free (h : Heap A) (a b : Nat) : (h.free a).cells b = if b = a then none else h.cells b := rfl

@[simp] theorem cells_free_self (h : Heap A) (a : Nat) : (h.free a).cells a = none := by
  simp [cells_free]

theorem cells_free_of_ne {h : Heap A} {a b : Nat} (hne : b ≠ a) : (h.free a).cells b = h.cells b := by
  rw [cells_free, if_neg hne]

@[simp] theorem next_set (h : Heap A) (a : Nat) (v : A) : (h.set a v).next = h.next := rfl

theorem cells_set_self {h : Heap A} {a : Nat} {v w : A} (hcell : h.cells a = some w) :
    (h.set a v).cells a = some v := by
  simp [set, hcell]

theorem cells_set_of_ne {h : Heap A} {a b : Nat} {v : A} (hne : b ≠ a) : (h.set a v).cells b = h.cells b :=
  if_neg hne

theorem isSome_cells_set (h : Heap A) (a b : Nat) (v : A) :
    ((h.set a v).cells b).isSome = (h.cells b).isSome := by
  by_cases hb : b = a
  · simp [set, hb]
  · rw [cells_set_of_ne hb]

theorem cells_set {h : Heap A} {a : Nat} {w : A} (hcell : h.cells a = some w) (v : A) (b : Nat) :
    (h.set a v).cells b = if b = a then some v else h.cells b := by
  simp [set, hcell]

@[simp] theorem set_set (h : Heap A) (a : Nat) (v w : A) : (h.set a v).set a w = h.set a w := by
  refine ext (fun b => ?_) rfl
  by_cases hb : b = a
  · simp [set, hb, Function.comp_def]
  · rw [cells_set_of_ne hb, cells_set_of_ne hb, cells_set_of_ne hb]

/-- A write to a block that was just allocated. -/
@[simp] theorem alloc_set (h : Heap A) (v w : A) : (h.alloc v).set h.next w = h.alloc w := by
  refine ext (fun b => ?_) rfl
  rw [cells_set (h.cells_alloc_self v)]
  by_cases hb : b = h.next
  · simp [hb]
  · rw [if_neg hb, cells_alloc, cells_alloc, if_neg hb, if_neg hb]

/-- A write to a block that is then freed. -/
@[simp] theorem set_free (h : Heap A) (a : Nat) (v : A) : (h.set a v).free a = h.free a := by
  refine ext (fun b => ?_) rfl
  by_cases hb : b = a
  · simp [hb]
  · rw [cells_free_of_ne hb, cells_free_of_ne hb, cells_set_of_ne hb]

theorem set_cells {h : Heap A} {a : Nat} {v : A} (hcell : h.cells a = some v) : h.set a v = h := by
  refine ext (fun b => ?_) rfl
  rw [cells_set hcell]
  split
  · rename_i hb
    rw [hb, hcell]
  · rfl

end Heap

namespace Store

variable {A : Type}

def empty : Store A where
  list := []
  heap := .empty

/-- `new->next = *list; *list = new`. -/
def push (s : Store A) (v : A) : Store A where
  list := s.heap.next :: s.list
  heap := s.heap.alloc v

def set (s : Store A) (a : Nat) (v : A) : Store A := { s with heap := s.heap.set a v }

/-- A block is taken out of the list and freed. -/
def remove (s : Store A) (a : Nat) : Store A where
  list := s.list.erase a
  heap := s.heap.free a

def map (s : Store A) (f : Nat → A → A) : Store A := { s with heap := s.heap.map f }

/-- The walk of a `find` function over the nodes that are left. -/
def findFrom (heap : Heap A) (test : A → Bool) : List Nat → Result (Option Nat)
  | [] => ok none
  | current :: nodes => do
    let v ← heap.read current
    if test v then ok (some current) else findFrom heap test nodes

/-- `while (current != NULL) { if (test(current)) return current; current = current->next; }`. -/
def find (s : Store A) (test : A → Bool) : Result (Option Nat) := findFrom s.heap test s.list

/-- The walk of a `delete_*_by_pointer` function: the first node equal to the pointer is
taken out of the list, and each node passed is read for its `next`. -/
def unlinkFrom (heap : Heap A) (pointer : Nat) : List Nat → Result (Option (List Nat))
  | [] => ok none
  | current :: nodes => do
    let _ ← heap.read current
    if current = pointer then ok (some nodes)
    else
      let rest ← unlinkFrom heap pointer nodes
      ok (rest.map (current :: ·))

def unlink (s : Store A) (pointer : Nat) : Result (Option (Store A)) := do
  let rest ← unlinkFrom s.heap pointer s.list
  ok (rest.map fun list => { s with list := list })

/-- The list runs through the live blocks of its heap, each of them once. -/
structure Sound (s : Store A) : Prop where
  nodup : s.list.Nodup
  live : ∀ a, a ∈ s.list ↔ (s.heap.cells a).isSome

@[simp] theorem list_set (s : Store A) (a : Nat) (v : A) : (s.set a v).list = s.list := rfl

@[simp] theorem heap_set (s : Store A) (a : Nat) (v : A) : (s.set a v).heap = s.heap.set a v := rfl

@[simp] theorem set_set (s : Store A) (a : Nat) (v w : A) : (s.set a v).set a w = s.set a w := by
  simp [set]

@[simp] theorem push_set (s : Store A) (v w : A) : (s.push v).set s.heap.next w = s.push w := by
  simp [set, push]

theorem set_cells {s : Store A} {a : Nat} {v : A} (hcell : s.heap.cells a = some v) : s.set a v = s := by
  rw [set, Heap.set_cells hcell]

@[simp] theorem list_push (s : Store A) (v : A) : (s.push v).list = s.heap.next :: s.list := rfl

@[simp] theorem heap_push (s : Store A) (v : A) : (s.push v).heap = s.heap.alloc v := rfl

theorem sound_empty : (empty : Store A).Sound where
  nodup := List.nodup_nil
  live a := by simp [empty, Heap.cells_empty]

theorem Sound.mem {s : Store A} (h : s.Sound) {a : Nat} {v : A} (hcell : s.heap.cells a = some v) :
    a ∈ s.list := by
  rw [h.live, hcell]
  rfl

theorem Sound.cells {s : Store A} (h : s.Sound) {a : Nat} (hmem : a ∈ s.list) :
    ∃ v, s.heap.cells a = some v :=
  Option.isSome_iff_exists.mp ((h.live a).mp hmem)

theorem Sound.set {s : Store A} (h : s.Sound) (a : Nat) (v : A) : (s.set a v).Sound where
  nodup := h.nodup
  live b := by
    rw [list_set, heap_set, Heap.isSome_cells_set]
    exact h.live b

theorem Sound.push {s : Store A} (h : s.Sound) (v : A) : (s.push v).Sound where
  nodup := by
    rw [list_push, List.nodup_cons]
    refine ⟨fun hmem => ?_, h.nodup⟩
    have hlive := (h.live _).mp hmem
    simp at hlive
  live b := by
    rw [list_push, heap_push, List.mem_cons, h.live, Heap.cells_alloc]
    split <;> simp_all

theorem cells_remove (s : Store A) (a b : Nat) :
    (s.remove a).heap.cells b = if b = a then none else s.heap.cells b := rfl

theorem cells_map (s : Store A) (f : Nat → A → A) (b : Nat) :
    (s.map f).heap.cells b = (s.heap.cells b).map (f b) := rfl

theorem Sound.remove {s : Store A} (h : s.Sound) (a : Nat) : (s.remove a).Sound where
  nodup := h.nodup.erase a
  live b := by
    rw [cells_remove, Store.remove, h.nodup.mem_erase_iff, h.live]
    split <;> simp_all

theorem Sound.map {s : Store A} (h : s.Sound) (f : Nat → A → A) : (s.map f).Sound where
  nodup := h.nodup
  live b := by
    rw [cells_map, Option.isSome_map]
    exact h.live b

@[simp] theorem set_remove (s : Store A) (a : Nat) (v : A) : (s.set a v).remove a = s.remove a := by
  simp [remove]

theorem map_id {s : Store A} {f : Nat → A → A} (h : ∀ a v, s.heap.cells a = some v → f a v = v) :
    s.map f = s := by
  obtain ⟨list, heap⟩ := s
  refine congrArg (Store.mk list) (Heap.ext (fun b => ?_) rfl)
  change (heap.cells b).map (f b) = heap.cells b
  cases hcell : heap.cells b with
  | none => rfl
  | some v => exact congrArg some (h b v hcell)

/-- A write to one block before a write to all of them. -/
theorem set_map {s : Store A} {f g : Nat → A → A} {a : Nat} {v : A} (hcell : s.heap.cells a = some v)
    {w : A} (hself : f a w = g a v) (hother : ∀ b u, b ≠ a → f b u = g b u) : (s.set a w).map f = s.map g := by
  refine congrArg (Store.mk s.list) (Heap.ext (fun b => ?_) rfl)
  change ((s.heap.set a w).cells b).map (f b) = (s.heap.cells b).map (g b)
  rw [Heap.cells_set hcell]
  by_cases hb : b = a
  · rw [if_pos hb, hb, hcell, Option.map_some, Option.map_some, hself]
  · rw [if_neg hb]
    cases s.heap.cells b with
    | none => rfl
    | some u => exact congrArg some (hother b u hb)

/-- The node a walk answers with passes the test, and the nodes before it fail it. -/
theorem findFrom_spec {heap : Heap A} {test : A → Bool} {nodes : List Nat}
    (hlive : ∀ a ∈ nodes, (heap.cells a).isSome) :
    findFrom heap test nodes =
      ok (nodes.find? fun a => ((heap.cells a).map test).getD false) := by
  induction nodes with
  | nil => rfl
  | cons a nodes ih =>
    obtain ⟨v, hv⟩ := Option.isSome_iff_exists.mp (hlive a (by simp))
    rw [findFrom, Heap.read_of_cells hv, bind_ok, List.find?_cons, hv]
    cases htest : test v with
    | true => simp [htest]
    | false =>
      rw [ih fun b hb => hlive b (List.mem_cons_of_mem a hb)]
      simp [htest]

theorem unlinkFrom_spec {heap : Heap A} {pointer : Nat} {nodes : List Nat}
    (hlive : ∀ a ∈ nodes, (heap.cells a).isSome) :
    unlinkFrom heap pointer nodes = ok (if pointer ∈ nodes then some (nodes.erase pointer) else none) := by
  induction nodes with
  | nil => rfl
  | cons a nodes ih =>
    obtain ⟨v, hv⟩ := Option.isSome_iff_exists.mp (hlive a (by simp))
    rw [unlinkFrom, Heap.read_of_cells hv, bind_ok]
    by_cases ha : a = pointer
    · simp [ha]
    · rw [if_neg ha, ih fun b hb => hlive b (List.mem_cons_of_mem a hb), bind_ok,
        List.erase_cons_tail (by simpa using ha)]
      by_cases hmem : pointer ∈ nodes
      · simp [hmem]
      · simp [hmem, Ne.symm ha]

/-- The first node of the list that passes the test. -/
def first (s : Store A) (test : A → Bool) : Option Nat :=
  s.list.find? fun a => ((s.heap.cells a).map test).getD false

theorem Sound.find {s : Store A} (h : s.Sound) (test : A → Bool) : s.find test = ok (s.first test) :=
  findFrom_spec fun a ha => (h.live a).mp ha

theorem Sound.unlink {s : Store A} (h : s.Sound) {pointer : Nat} (hmem : pointer ∈ s.list) :
    s.unlink pointer = ok (some { s with list := s.list.erase pointer }) := by
  rw [Store.unlink, unlinkFrom_spec fun a ha => (h.live a).mp ha, if_pos hmem]
  rfl

theorem first_eq_some {s : Store A} {test : A → Bool} {a : Nat} (h : s.first test = some a) :
    a ∈ s.list ∧ ∃ v, s.heap.cells a = some v ∧ test v = true := by
  refine ⟨List.mem_of_find?_eq_some h, ?_⟩
  have htest := List.find?_some h
  cases hcell : s.heap.cells a with
  | none => simp [hcell] at htest
  | some v => exact ⟨v, rfl, by simpa [hcell] using htest⟩

theorem first_eq_none {s : Store A} {test : A → Bool} (h : s.first test = none) {a : Nat} {v : A}
    (hmem : a ∈ s.list) (hcell : s.heap.cells a = some v) : test v = false := by
  have hall := List.find?_eq_none.mp h a hmem
  simpa [hcell] using hall

theorem Sound.first_eq_none_iff {s : Store A} (h : s.Sound) {test : A → Bool} :
    s.first test = none ↔ ∀ a v, s.heap.cells a = some v → test v = false := by
  constructor
  · exact fun hnone a v hcell => first_eq_none hnone (h.mem hcell) hcell
  · intro hall
    cases hfirst : s.first test with
    | none => rfl
    | some a =>
      obtain ⟨-, v, hcell, htest⟩ := first_eq_some hfirst
      rw [hall a v hcell] at htest
      cases htest

/-- A node that was just linked is the first that is tested. -/
theorem Sound.first_push {s : Store A} (h : s.Sound) (v : A) (test : A → Bool) :
    (s.push v).first test = if test v then some s.heap.next else s.first test := by
  have hfresh : s.heap.next ∉ s.list := fun hmem => by simpa using (h.live _).mp hmem
  rw [first, list_push, heap_push, List.find?_cons, Heap.cells_alloc_self]
  cases htest : test v with
  | true => simp [htest]
  | false =>
    have hsame : ∀ a ∈ s.list, (s.heap.alloc v).cells a = s.heap.cells a := by
      intro a ha
      rw [Heap.cells_alloc, if_neg]
      rintro rfl
      exact hfresh ha
    simp only [Option.map_some, Option.getD_some, htest, Bool.false_eq_true, if_false]
    rw [first, ← List.head?_filter, ← List.head?_filter]
    refine congrArg List.head? (List.filter_congr fun a ha => ?_)
    rw [hsame a ha]

theorem Sound.find_push {s : Store A} (h : s.Sound) (v : A) (test : A → Bool) :
    (s.push v).find test = if test v then ok (some s.heap.next) else s.find test := by
  rw [(h.push v).find, h.first_push, h.find]
  split <;> rfl

/-- The only node that passes the test is the first. -/
theorem Sound.first_eq_some_of_unique {s : Store A} (h : s.Sound) {test : A → Bool} {a : Nat} {v : A}
    (hcell : s.heap.cells a = some v) (htest : test v = true)
    (hunique : ∀ b w, s.heap.cells b = some w → test w = true → b = a) : s.first test = some a := by
  cases hfirst : s.first test with
  | none =>
    rw [h.first_eq_none_iff.mp hfirst a v hcell] at htest
    cases htest
  | some b =>
    obtain ⟨-, w, hw, hpasses⟩ := first_eq_some hfirst
    rw [hunique b w hw hpasses]

/-- What a function makes of the blocks of the list, in its order. -/
def view {B : Type} (s : Store A) (f : A → B) : List B := s.list.filterMap fun a => (s.heap.cells a).map f

section View

variable {B : Type} {f : A → B}

private theorem view_congr {nodes : List Nat} {heap heap' : Heap A}
    (h : ∀ a ∈ nodes, (heap'.cells a).map f = (heap.cells a).map f) :
    nodes.filterMap (fun a => (heap'.cells a).map f) = nodes.filterMap fun a => (heap.cells a).map f := by
  induction nodes with
  | nil => rfl
  | cons a nodes ih =>
    rw [List.filterMap_cons, List.filterMap_cons, h a List.mem_cons_self,
      ih fun b hb => h b (List.mem_cons_of_mem a hb)]

theorem view_eq_of_cells {s s' : Store A} (hlist : s'.list = s.list)
    (hcells : ∀ a, (s'.heap.cells a).map f = (s.heap.cells a).map f) : s'.view f = s.view f := by
  rw [view, hlist]
  exact view_congr fun a _ => hcells a

theorem Sound.view_push {s : Store A} (h : s.Sound) (v : A) : (s.push v).view f = f v :: s.view f := by
  have hfresh : s.heap.next ∉ s.list := fun hmem => by simpa using (h.live _).mp hmem
  rw [view, list_push, List.filterMap_cons, heap_push, Heap.cells_alloc_self]
  refine congrArg (f v :: ·) (view_congr fun a ha => ?_)
  rw [Heap.cells_alloc, if_neg]
  rintro rfl
  exact hfresh ha

theorem Sound.view_remove {s : Store A} (h : s.Sound) {a : Nat} {v : A} (hcell : s.heap.cells a = some v) :
    (s.view f).Perm (f v :: (s.remove a).view f) := by
  have hfirst : (s.view f).Perm ((a :: s.list.erase a).filterMap fun b => (s.heap.cells b).map f) :=
    (List.perm_cons_erase (h.mem hcell)).filterMap _
  rw [List.filterMap_cons, hcell] at hfirst
  refine hfirst.trans (List.Perm.of_eq (congrArg (f v :: ·) (view_congr fun b hb => ?_).symm))
  rw [cells_remove, if_neg]
  rintro rfl
  exact h.nodup.not_mem_erase hb

theorem Sound.view_set {s : Store A} (h : s.Sound) {a : Nat} {v w : A} (hcell : s.heap.cells a = some v) :
    ((s.set a w).view f).Perm (f w :: (s.remove a).view f) := by
  have hperm := (h.set a w).view_remove (f := f) (Heap.cells_set_self hcell)
  rwa [set_remove] at hperm

theorem Sound.mem_view {s : Store A} (h : s.Sound) {w : B} :
    w ∈ s.view f ↔ ∃ a v, s.heap.cells a = some v ∧ f v = w := by
  simp only [view, List.mem_filterMap, Option.map_eq_some_iff]
  constructor
  · rintro ⟨a, -, v, hcell, hw⟩
    exact ⟨a, v, hcell, hw⟩
  · rintro ⟨a, v, hcell, hw⟩
    exact ⟨a, h.mem hcell, v, hcell, hw⟩

end View

end Store

end clib
