import Mathlib.Data.List.Range
import Mathlib.Data.List.Perm.Subperm
import MockUas.Clib.Heap

namespace clib

/-- A singly linked list as C keeps it: the pointer to its first node, and the `next` field
of every block. -/
structure Linked where
  head : Option Nat
  next : Nat → Option Nat

namespace Linked

/-- The nodes a pointer leads through, up to the `NULL` behind the last. Only a list without
a cycle has one. -/
inductive Leads (next : Nat → Option Nat) : Option Nat → List Nat → Prop where
  | nil : Leads next none []
  | cons {a : Nat} {nodes : List Nat} (hrest : Leads next (next a) nodes) : Leads next (some a) (a :: nodes)

/-- The list runs through these live blocks, in this order. -/
structure Through {A : Type} (l : Linked) (heap : Heap A) (nodes : List Nat) : Prop where
  leads : Leads l.next l.head nodes
  live : ∀ a ∈ nodes, (heap.cells a).isSome

/-- The nodes from a pointer on, as far as the fuel reaches. -/
def nodesFrom (next : Nat → Option Nat) : Nat → Option Nat → List Nat
  | 0, _ => []
  | _, none => []
  | fuel + 1, some current => current :: nodesFrom next fuel (next current)

/-- A walk over different blocks ends before it has met more of them than were ever allocated. -/
def nodes {A : Type} (l : Linked) (heap : Heap A) : List Nat := nodesFrom l.next heap.next l.head

/-- `while (current != NULL) { if (test(current)) return current; current = current->next; }`. -/
def findFrom {A : Type} (heap : Heap A) (next : Nat → Option Nat) (test : Nat → A → Bool) :
    Nat → Option Nat → Result (Option Nat)
  | _, none => ok none
  | 0, some _ => error .outOfFuel
  | fuel + 1, some current => do
    let v ← heap.read current
    if test current v then ok (some current) else findFrom heap next test fuel (next current)

def find {A : Type} (l : Linked) (heap : Heap A) (test : Nat → A → Bool) : Result (Option Nat) :=
  findFrom heap l.next test heap.next l.head

/-- `*list = current->next` where there is no previous node, and `previous->next = current->next`
else. -/
def bypass (l : Linked) (previous : Option Nat) (current : Nat) : Linked :=
  match previous with
  | none => { l with head := l.next current }
  | some previous => { l with next := Function.update l.next previous (l.next current) }

/-- The loop of a `delete` function: the first node that passes the test is taken out of the
list. -/
def deleteFrom {A : Type} (heap : Heap A) (test : Nat → A → Bool) (l : Linked) :
    Nat → Option Nat → Option Nat → Result (Option (Nat × Linked))
  | _, _, none => ok none
  | 0, _, some _ => error .outOfFuel
  | fuel + 1, previous, some current => do
    let v ← heap.read current
    if test current v then
      match previous with
      | none => ok (some (current, l.bypass none current))
      | some previous => do
        let _ ← heap.read previous
        ok (some (current, l.bypass (some previous) current))
    else deleteFrom heap test l fuel (some current) (l.next current)

def delete {A : Type} (l : Linked) (heap : Heap A) (test : Nat → A → Bool) : Result (Option (Nat × Linked)) :=
  deleteFrom heap test l heap.next none l.head

section Specs

variable {A : Type} {heap : Heap A} {l : Linked}

/-- A test of a block, as a test of its address. -/
def passes (heap : Heap A) (test : Nat → A → Bool) (a : Nat) : Bool := ((heap.cells a).map (test a)).getD false

/-- The node before another one. -/
def before : Option Nat → List Nat → Nat → Option Nat
  | previous, [], _ => previous
  | previous, b :: nodes, a => if b = a then previous else before (some b) nodes a

theorem Leads.unique {next : Nat → Option Nat} {p : Option Nat} {xs ys : List Nat} (hxs : Leads next p xs)
    (hys : Leads next p ys) : xs = ys := by
  induction hxs generalizing ys with
  | nil =>
    cases hys
    rfl
  | cons hrest ih =>
    cases hys with
    | cons hrest' => rw [ih hrest']

/-- The list behind one of its nodes. -/
theorem Leads.drop {next : Nat → Option Nat} {p : Option Nat} {nodes : List Nat} (h : Leads next p nodes)
    {xs ys : List Nat} {a : Nat} (hsplit : nodes = xs ++ a :: ys) : Leads next (next a) ys := by
  induction h generalizing xs with
  | nil => simp at hsplit
  | @cons b nodes hrest ih =>
    cases xs with
    | nil =>
      obtain ⟨rfl, rfl⟩ := List.cons.inj hsplit
      exact hrest
    | cons x xs => exact ih (List.cons.inj hsplit).2

/-- A list that ends meets no node twice. -/
theorem Leads.nodup {next : Nat → Option Nat} {p : Option Nat} {nodes : List Nat} (h : Leads next p nodes) :
    nodes.Nodup := by
  induction h with
  | nil => exact List.nodup_nil
  | @cons a nodes hrest ih =>
    rw [List.nodup_cons]
    refine ⟨fun hmem => ?_, ih⟩
    obtain ⟨xs, ys, hsplit⟩ := List.append_of_mem hmem
    have hlength := congrArg List.length (hrest.unique (hrest.drop hsplit))
    rw [hsplit] at hlength
    simp at hlength
    omega

theorem Through.length_le {nodes : List Nat} (h : l.Through heap nodes) : nodes.length ≤ heap.next := by
  have hsub : nodes ⊆ List.range heap.next := by
    intro a ha
    obtain ⟨v, hv⟩ := Option.isSome_iff_exists.mp (h.live a ha)
    exact List.mem_range.mpr (Heap.lt_next_of_cells hv)
  have hle := (List.subperm_of_subset h.leads.nodup hsub).length_le
  rwa [List.length_range] at hle

theorem nodesFrom_spec {next : Nat → Option Nat} {p : Option Nat} {nodes : List Nat} (h : Leads next p nodes)
    {fuel : Nat} (hfuel : nodes.length ≤ fuel) : nodesFrom next fuel p = nodes := by
  induction h generalizing fuel with
  | nil => cases fuel <;> rfl
  | @cons a nodes hrest ih =>
    obtain ⟨fuel, rfl⟩ := Nat.exists_eq_add_of_lt (Nat.lt_of_lt_of_le (Nat.succ_pos _) hfuel)
    rw [Nat.zero_add, nodesFrom, ih]
    simpa using hfuel

theorem Through.nodes {nodes : List Nat} (h : l.Through heap nodes) : l.nodes heap = nodes :=
  nodesFrom_spec h.leads h.length_le

private theorem passes_of_cells {test : Nat → A → Bool} {a : Nat} {v : A} (hcell : heap.cells a = some v) :
    passes heap test a = test a v := by
  rw [passes, hcell]
  rfl

theorem findFrom_spec {next : Nat → Option Nat} {p : Option Nat} {nodes : List Nat} (h : Leads next p nodes)
    (hlive : ∀ a ∈ nodes, (heap.cells a).isSome) (test : Nat → A → Bool) {fuel : Nat} (hfuel : nodes.length ≤ fuel) :
    findFrom heap next test fuel p = ok (nodes.find? (passes heap test)) := by
  induction h generalizing fuel with
  | nil => cases fuel <;> rfl
  | @cons a nodes hrest ih =>
    obtain ⟨v, hv⟩ := Option.isSome_iff_exists.mp (hlive a List.mem_cons_self)
    obtain ⟨fuel, rfl⟩ := Nat.exists_eq_add_of_lt (Nat.lt_of_lt_of_le (Nat.succ_pos _) hfuel)
    rw [Nat.zero_add, findFrom, Heap.read_of_cells hv, bind_ok, List.find?_cons, passes_of_cells hv]
    cases htest : test a v with
    | true => rfl
    | false =>
      have hrest_fuel : nodes.length ≤ fuel := by simpa using hfuel
      exact ih (fun b hb => hlive b (List.mem_cons_of_mem a hb)) hrest_fuel

theorem Through.find {nodes : List Nat} (h : l.Through heap nodes) (test : Nat → A → Bool) :
    l.find heap test = ok (nodes.find? (passes heap test)) :=
  findFrom_spec h.leads h.live test h.length_le

theorem deleteFrom_spec {p : Option Nat} {nodes : List Nat} (h : Leads l.next p nodes)
    (hlive : ∀ a ∈ nodes, (heap.cells a).isSome) (test : Nat → A → Bool) {fuel : Nat} (hfuel : nodes.length ≤ fuel)
    {previous : Option Nat} (hprevious : ∀ b, previous = some b → (heap.cells b).isSome) :
    deleteFrom heap test l fuel previous p =
      ok ((nodes.find? (passes heap test)).map fun a => (a, l.bypass (before previous nodes a) a)) := by
  induction h generalizing fuel previous with
  | nil => cases fuel <;> rfl
  | @cons a nodes hrest ih =>
    obtain ⟨v, hv⟩ := Option.isSome_iff_exists.mp (hlive a List.mem_cons_self)
    obtain ⟨fuel, rfl⟩ := Nat.exists_eq_add_of_lt (Nat.lt_of_lt_of_le (Nat.succ_pos _) hfuel)
    simp only [Nat.zero_add, deleteFrom, Heap.read_of_cells hv, bind_ok, List.find?_cons, passes_of_cells hv]
    cases htest : test a v with
    | true =>
      cases previous with
      | none => simp [before]
      | some b =>
        obtain ⟨w, hw⟩ := Option.isSome_iff_exists.mp (hprevious b rfl)
        simp [before, Heap.read_of_cells hw]
    | false =>
      have hrest_fuel : nodes.length ≤ fuel := by simpa using hfuel
      have hcurrent : ∀ b, some a = some b → (heap.cells b).isSome := by
        rintro b ⟨⟩
        rw [hv]
        rfl
      simp only [Bool.false_eq_true, if_false]
      rw [ih (fun b hb => hlive b (List.mem_cons_of_mem a hb)) hrest_fuel hcurrent]
      cases hfound : nodes.find? (passes heap test) with
      | none => rfl
      | some c =>
        have hne : a ≠ c := by
          rintro rfl
          have hpasses := List.find?_some hfound
          rw [passes_of_cells hv, htest] at hpasses
          cases hpasses
        rw [Option.map_some, Option.map_some, before, if_neg hne]

theorem Through.delete {nodes : List Nat} (h : l.Through heap nodes) (test : Nat → A → Bool) :
    l.delete heap test =
      ok ((nodes.find? (passes heap test)).map fun a => (a, l.bypass (before none nodes a) a)) :=
  deleteFrom_spec h.leads h.live test h.length_le (by rintro b ⟨⟩)

/-- To take out the first node that passes a test is to take out that node by its address. -/
theorem Through.delete_found {nodes : List Nat} (h : l.Through heap nodes) {test : Nat → A → Bool} {a : Nat}
    (hfound : nodes.find? (passes heap test) = some a) :
    l.delete heap test = l.delete heap fun current _ => current == a := by
  obtain ⟨v, hv⟩ := Option.isSome_iff_exists.mp (h.live a (List.mem_of_find?_eq_some hfound))
  have hsame : nodes.find? (passes heap fun current _ => current == a) = some a := by
    obtain ⟨-, xs, ys, hsplit, -⟩ := List.find?_eq_some_iff_append.mp hfound
    refine List.find?_eq_some_iff_append.mpr ⟨?_, xs, ys, hsplit, fun b hb => ?_⟩
    · rw [passes_of_cells hv, beq_self_eq_true]
    · have hne : b ≠ a := by
        rintro rfl
        have hnodup := h.leads.nodup
        rw [hsplit, List.nodup_append] at hnodup
        exact hnodup.2.2 b hb b List.mem_cons_self rfl
      cases hcell : heap.cells b with
      | none => simp [passes, hcell]
      | some w => simp [passes_of_cells hcell, hne]
  rw [h.delete, h.delete, hfound, hsame]

theorem Through.delete_pointer {nodes : List Nat} (h : l.Through heap nodes) (a : Nat) :
    l.delete heap (fun current _ => current == a) =
      ok (if a ∈ nodes then some (a, l.bypass (before none nodes a) a) else none) := by
  have hpasses : ∀ b ∈ nodes, passes heap (fun current _ => current == a) b = (b == a) := by
    intro b hb
    obtain ⟨v, hv⟩ := Option.isSome_iff_exists.mp (h.live b hb)
    exact passes_of_cells hv
  have hfind : nodes.find? (passes heap fun current _ => current == a) = if a ∈ nodes then some a else none := by
    cases hfound : nodes.find? (passes heap fun current _ => current == a) with
    | none =>
      rw [if_neg fun hmem => ?_]
      have hfails := List.find?_eq_none.mp hfound a hmem
      rw [hpasses a hmem, beq_self_eq_true] at hfails
      exact hfails rfl
    | some b =>
      have hmem := List.mem_of_find?_eq_some hfound
      have hb := List.find?_some hfound
      rw [hpasses b hmem, beq_iff_eq] at hb
      rw [← hb, if_pos hmem]
  rw [h.delete, hfind]
  split <;> rfl

/-- A write to the link of a block that is not met changes nothing. -/
theorem Leads.update {next : Nat → Option Nat} {p : Option Nat} {nodes : List Nat} (h : Leads next p nodes)
    {b : Nat} (hb : b ∉ nodes) (q : Option Nat) : Leads (Function.update next b q) p nodes := by
  induction h with
  | nil => exact .nil
  | @cons a nodes hrest ih =>
    obtain ⟨hne, hnot⟩ := not_or.mp (List.mem_cons.not.mp hb)
    refine .cons ?_
    rw [Function.update_of_ne (Ne.symm hne)]
    exact ih hnot

theorem before_mem {b a : Nat} {nodes : List Nat} : ∃ c ∈ b :: nodes, before (some b) nodes a = some c := by
  induction nodes generalizing b with
  | nil => exact ⟨b, by simp, rfl⟩
  | cons c nodes ih =>
    rw [before]
    split
    · exact ⟨b, by simp, rfl⟩
    · obtain ⟨d, hd, hbefore⟩ := ih (b := c)
      exact ⟨d, List.mem_cons_of_mem b hd, hbefore⟩

/-- A node that is bypassed behind the first leaves the others linked. -/
private theorem leads_bypassed {next : Nat → Option Nat} {b : Nat} {nodes : List Nat}
    (h : Leads next (next b) nodes) (hb : b ∉ nodes) {a p : Nat} (ha : a ∈ nodes)
    (hp : before (some b) nodes a = some p) :
    Leads (Function.update next p (next a)) (some b) (b :: nodes.erase a) := by
  induction nodes generalizing b with
  | nil => cases ha
  | cons c nodes ih =>
    have hnodup := h.nodup
    obtain ⟨hbc, hbnodes⟩ := not_or.mp (List.mem_cons.not.mp hb)
    generalize hnext : next b = q at h
    cases h with
    | cons hrest =>
      rw [before] at hp
      by_cases hca : c = a
      · subst hca
        rw [if_pos rfl, Option.some.injEq] at hp
        subst hp
        rw [List.erase_cons_head]
        refine .cons ?_
        rw [Function.update_self]
        exact hrest.update hbnodes _
      · rw [if_neg hca] at hp
        obtain ⟨d, hd, hbefore⟩ := @before_mem c a nodes
        rw [hp, Option.some.injEq] at hbefore
        subst hbefore
        have hpb : b ≠ p := by
          rintro rfl
          exact hb hd
        rw [List.erase_cons_tail (by simpa using hca)]
        refine .cons ?_
        rw [Function.update_of_ne hpb, hnext]
        exact ih hrest (List.nodup_cons.mp hnodup).1 ((List.mem_cons.mp ha).resolve_left (Ne.symm hca)) hp

/-- The list without one of its nodes. -/
theorem Through.bypass {nodes : List Nat} (h : l.Through heap nodes) {a : Nat} (ha : a ∈ nodes) :
    (l.bypass (before none nodes a) a).Through heap (nodes.erase a) := by
  refine ⟨?_, fun b hb => h.live b (List.mem_of_mem_erase hb)⟩
  obtain ⟨head, next⟩ := l
  obtain ⟨hleads, -⟩ := h
  cases hleads with
  | nil => cases ha
  | @cons b nodes hrest =>
    have hnodup := List.nodup_cons.mp (Leads.cons hrest).nodup
    by_cases hba : b = a
    · subst hba
      rw [before, if_pos rfl, List.erase_cons_head]
      exact hrest
    · obtain ⟨p, -, hp⟩ := @before_mem b a nodes
      rw [before, if_neg hba, hp, List.erase_cons_tail (by simpa using hba)]
      exact leads_bypassed hrest hnodup.1 ((List.mem_cons.mp ha).resolve_left (Ne.symm hba)) hp

/-- The walks along the links are those over the list of a store. -/
theorem Through.find_eq {s : Store A} (h : l.Through s.heap s.list) (test : A → Bool) :
    l.find s.heap (fun _ => test) = s.find test := by
  rw [h.find, Store.find, Store.findFrom_spec h.live]
  rfl

theorem Through.unlink_eq {s : Store A} (h : l.Through s.heap s.list) (a : Nat) :
    s.unlink a = ok (if a ∈ s.list then
      some { s with list := (l.bypass (before none s.list a) a).nodes s.heap } else none) := by
  rw [Store.unlink, Store.unlinkFrom_spec h.live, bind_ok]
  split
  · rename_i hmem
    rw [(h.bypass hmem).nodes]
    rfl
  · rfl

end Specs

end Linked

end clib
