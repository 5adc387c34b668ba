import MockUas.Server.InviteOutcome
import MockUas.Server.WellFormed

open clib
open mock_uas.sip_message
open mock_uas.sip_utils

namespace mock_uas.sip_server

/-- What the functions of a store are given of an identifier: the C string at a pointer, and
a length. -/
structure Identifier where
  text : Bytes
  length : Nat
  deriving DecidableEq

namespace Identifier

/-- What two identifiers are compared by. -/
def key (i : Identifier) : Nat × Bytes := (i.length, i.text.take i.length)

/-- An identifier as the parser hands it over, wherever its length comes from. -/
structure Parsed (i : Identifier) : Prop where
  nonempty : i.length ≠ 0
  recorded : Recorded i.length
  clean : NUL ∉ i.text
  short : i.text.length < BUFFER_SIZE

/-- A request's branch, its From tag and its Call-ID, if that is not empty. -/
theorem parsed_of_accepted {datagram : Datagram} {client_addr : sockaddr_in} {message : sip_message_t}
    (h : Accepted datagram client_addr message) :
    Parsed ⟨branch_text message, message.branch_length⟩ ∧ Parsed ⟨from_tag_text message, message.from_tag_length⟩ ∧
      (message.call_id_length ≠ 0 →
        Parsed ⟨cstr message.buffer (message.call_id.getD 0), message.call_id_length⟩) := by
  have hrequest := h.request.1
  obtain ⟨hbuffer, hheaders⟩ := h.recorded
  have hshort : ∀ pointer, Points message.buffer pointer →
      (cstr message.buffer (pointer.getD 0)).length < BUFFER_SIZE := by
    rintro pointer ⟨i, rfl, hterm⟩
    have hlt := length_cstr_lt hterm
    rw [hrequest.buffer] at hlt
    rw [Option.getD_some]
    omega
  have hfrom_tag : Recorded message.from_tag_length :=
    recorded_of_parameterSlice (buffered_spec datagram) (by rw [length_buffered]; decide) hheaders.from_tag
      hheaders.from_tag_found.1
  refine ⟨⟨hrequest.branch.2, hrequest.branch_length, nul_not_mem_cstr _ _, hshort _ hrequest.branch.1⟩,
    ⟨hrequest.from_tag.2, hfrom_tag, nul_not_mem_cstr _ _, hshort _ hrequest.from_tag.1⟩, fun hne => ?_⟩
  obtain ⟨i, hi, hterm, -, hlength⟩ := hrequest.call_id
  exact ⟨hne, .inl hlength, nul_not_mem_cstr _ _, hshort _ ⟨i, hi, hterm⟩⟩

/-- An array of a record holds the identifier whole. -/
def Fits (i : Identifier) (capacity : Nat) : Prop := (i.text.take i.length).length ≤ capacity

instance (i : Identifier) (capacity : Nat) : Decidable (i.Fits capacity) := Nat.decLe _ _

/-- The copy a record keeps. -/
def stored (i : Identifier) (capacity : Nat) : Text capacity :=
  printed capacity (precision (intCast i.length) i.text)

/-- The test that the three stores share, on the length and the copy of a record. -/
def compared (i : Identifier) {capacity : Nat} (length : Nat) (copy : Text capacity) : Bool :=
  length == i.length && strncmp copy.bytes i.text i.length

theorem compared_eq_true_iff {i : Identifier} {capacity length : Nat} {copy : Text capacity} :
    i.compared length copy = true ↔ length = i.length ∧ copy.bytes.take i.length = i.text.take i.length := by
  simp [compared, strncmp_eq_true_iff]

theorem Parsed.bytes_stored {own : Identifier} (h : own.Parsed) (capacity : Nat) :
    (own.stored capacity).bytes = (own.text.take own.length).take capacity := by
  have hshort : own.text.length < 2 ^ 31 := h.short.trans (by decide)
  rw [stored, bytes_printed _ (nul_not_mem_precision h.clean), precision_of_recorded h.recorded hshort]

/-- A copy that is whole is told from every other identifier. -/
theorem Parsed.compared_stored {own : Identifier} (h : own.Parsed) {capacity : Nat} (hfits : own.Fits capacity)
    (i : Identifier) : i.compared own.length (own.stored capacity) = true ↔ i.key = own.key := by
  rw [compared_eq_true_iff, h.bytes_stored, List.take_of_length_le hfits, key, key, Prod.mk.injEq]
  constructor
  · rintro ⟨hlength, htext⟩
    rw [← hlength, List.take_take, Nat.min_self] at htext
    exact ⟨hlength.symm, hlength ▸ htext.symm⟩
  · rintro ⟨hlength, htext⟩
    rw [htext, hlength, List.take_take, Nat.min_self]
    exact ⟨rfl, rfl⟩

/-- A copy that was cut is not recognised any more. -/
theorem not_compared_stored {own : Identifier} {capacity : Nat} (hcut : ¬ own.Fits capacity) :
    own.compared own.length (own.stored capacity) = false := by
  rw [Bool.eq_false_iff, ne_eq, compared_eq_true_iff]
  rintro ⟨-, htext⟩
  have hlength := congrArg List.length htext
  have hkept := (own.stored capacity).fits
  rw [List.length_take] at hlength
  rw [Fits] at hcut
  omega

end Identifier

/-- The record created last is found by its identifier, and every other identifier leads
where it led before. -/
structure FoundAgain {I K : Type} (key : I → K) (before after : I → Result (Option Nat)) (own : I)
    (created : Nat) : Prop where
  itself : ∀ i, key i = key own → after i = ok (some created)
  others : ∀ i, key i ≠ key own → after i = before i

/-- It comes down to what the test says of the new record. -/
theorem foundAgain_push {A I K : Type} {s : Store A} (hsound : s.Sound) {v : A} {test : I → A → Bool} {key : I → K}
    {before after : I → Result (Option Nat)} {own : I} (hbefore : ∀ i, before i = s.find (test i))
    (hafter : ∀ i, after i = (s.push v).find (test i)) :
    FoundAgain key before after own s.heap.next ↔ ∀ i, test i v = true ↔ key i = key own := by
  have hstep : ∀ i, after i = if test i v then ok (some s.heap.next) else before i := by
    intro i
    rw [hafter, hsound.find_push, hbefore]
  have hold : ∀ i, before i ≠ ok (some s.heap.next) := by
    intro i hfound
    rw [hbefore, hsound.find, Except.ok.injEq] at hfound
    obtain ⟨-, w, hcell, -⟩ := Store.first_eq_some hfound
    rw [Heap.cells_next] at hcell
    cases hcell
  constructor
  · intro h i
    constructor
    · intro htest
      by_contra hne
      have hsame := h.others i hne
      rw [hstep, if_pos htest] at hsame
      exact hold i hsame.symm
    · intro hkey
      have hown := h.itself i hkey
      by_contra htest
      rw [hstep, if_neg htest] at hown
      exact hold i hown
  · intro h
    refine ⟨fun i hkey => ?_, fun i hne => ?_⟩
    · rw [hstep, if_pos ((h i).mpr hkey)]
    · rw [hstep, if_neg fun htest => hne ((h i).mp htest)]

/-- The checks of a `find` function before its walk. -/
private theorem find_guarded {A : Type} {s : Store A} (h : s.Sound) (length : Nat) (test : A → Bool) :
    (if s.list = [] ∨ length = 0 then ok none else s.find test) = s.find fun v => length != 0 && test v := by
  by_cases hzero : length = 0
  · rw [if_pos (.inr hzero), h.find, h.first_eq_none_iff.mpr fun a v _ => by simp [hzero]]
  · have hsame : (fun v => length != 0 && test v) = test := by
      funext v
      simp [hzero]
    rw [hsame]
    by_cases hempty : s.list = []
    · rw [if_pos (.inl hempty), Store.find, hempty]
      rfl
    · rw [if_neg (by simp [hempty, hzero])]

/-- The lookups of the three stores. A dialog is looked up by two tags, of which a request
need not have the second. -/
def transaction_by (m : Machine) (branch : Identifier) : Result (Option Nat) :=
  find_transaction_by_id m.worker.transactions (some branch.text) branch.length

def call_by (m : Machine) (call_id : Identifier) : Result (Option Nat) :=
  find_call_by_id m.worker.calls (some call_id.text) call_id.length

def dialog_by (m : Machine) (tags : Identifier × Option Identifier) : Result (Option Nat) :=
  find_dialog_by_id m.worker.dialogs (some tags.1.text) tags.1.length (tags.2.map (·.text))
    ((tags.2.map (·.length)).getD 0)

def tags_key (tags : Identifier × Option Identifier) : (Nat × Bytes) × Option (Nat × Bytes) :=
  (tags.1.key, tags.2.map Identifier.key)

/-- The tag a dialog was given when it was created. -/
def generated (d : sip_dialog_t) : Identifier := ⟨d.to_tag.bytes, d.to_tag_length⟩

private def is_branch (branch : Identifier) (t : sip_transaction_t) : Bool :=
  branch.length != 0 && branch.compared t.branch_length t.branch

private def is_call_id (call_id : Identifier) (c : sip_call_t) : Bool :=
  call_id.length != 0 && call_id.compared c.call_id_length c.call_id

private def are_tags (tags : Identifier × Option Identifier) (d : sip_dialog_t) : Bool :=
  tags.1.length != 0 && (tags.1.compared d.from_tag_length d.from_tag && match tags.2 with
    | none => false
    | some to_tag => to_tag.compared d.to_tag_length d.to_tag)

private theorem transaction_by_eq {m : Machine} (h : m.worker.transactions.Sound) (branch : Identifier) :
    transaction_by m branch = m.worker.transactions.find (is_branch branch) :=
  find_guarded h _ _

private theorem call_by_eq {m : Machine} (h : m.worker.calls.Sound) (call_id : Identifier) :
    call_by m call_id = m.worker.calls.find (is_call_id call_id) :=
  find_guarded h _ _

private theorem dialog_by_eq {m : Machine} (h : m.worker.dialogs.Sound) (tags : Identifier × Option Identifier) :
    dialog_by m tags = m.worker.dialogs.find (are_tags tags) := by
  obtain ⟨from_tag, to_tag⟩ := tags
  refine (find_guarded h _ _).trans (congrArg m.worker.dialogs.find (funext fun d => ?_))
  cases to_tag with
  | none => simp [are_tags]
  | some to_tag => rfl

/-- A test that an identifier passes when the copy of the new record is its own. -/
private theorem stored_iff {own : Identifier} (h : own.Parsed) {capacity : Nat} :
    (∀ i : Identifier, (i.length != 0 && i.compared own.length (own.stored capacity)) = true ↔ i.key = own.key) ↔
      own.Fits capacity := by
  constructor
  · intro hall
    by_contra hcut
    have hown := (hall own).mpr rfl
    rw [Identifier.not_compared_stored hcut, Bool.and_false] at hown
    cases hown
  · intro hfits i
    rw [Bool.and_eq_true, h.compared_stored hfits]
    refine ⟨And.right, fun hkey => ⟨?_, hkey⟩⟩
    have hlength : i.length = own.length := congrArg Prod.fst hkey
    simpa [hlength] using h.nonempty

private theorem compared_generated (d : sip_dialog_t) (i : Identifier) :
    i.compared d.to_tag_length d.to_tag = true ↔ i.key = (generated d).key := by
  rw [Identifier.compared_eq_true_iff, Identifier.key, Identifier.key, generated, Prod.mk.injEq]
  constructor
  · rintro ⟨hlength, htext⟩
    exact ⟨hlength.symm, hlength ▸ htext.symm⟩
  · rintro ⟨hlength, htext⟩
    exact ⟨hlength.symm, hlength ▸ htext.symm⟩

private theorem stored_tags_iff {own : Identifier} (h : own.Parsed) {d : sip_dialog_t}
    (htag : d.from_tag = own.stored SIP_TAG_MAX_LENGTH) (hlength : d.from_tag_length = own.length) :
    (∀ tags, are_tags tags d = true ↔ tags_key tags = tags_key (own, some (generated d))) ↔
      own.Fits SIP_TAG_MAX_LENGTH := by
  rw [← stored_iff h]
  constructor
  · intro hall i
    have hi := hall (i, some (generated d))
    simp only [are_tags, tags_key, htag, hlength, (compared_generated d _).mpr rfl, Bool.and_true, Option.map_some,
      Prod.mk.injEq, and_true] at hi
    exact hi
  · rintro hall ⟨from_tag, to_tag⟩
    have hfrom := hall from_tag
    rw [← hlength, ← htag, Bool.and_eq_true] at hfrom
    cases to_tag with
    | none => simp [are_tags, tags_key]
    | some to_tag =>
      simp only [are_tags, tags_key, Bool.and_eq_true, compared_generated, Option.map_some, Prod.mk.injEq,
        Option.some.injEq, ← hfrom, and_assoc]

/-- What a `create` function leaves when it returns a record. -/
private theorem created_transaction {m m' : Machine} {branch : Identifier} {created : Nat}
    (h : create_new_transaction m (some branch.text) branch.length = (some created, m')) :
    created = m.worker.transactions.heap.next ∧
      m'.worker.transactions = m.worker.transactions.push (new_transaction branch.text branch.length) := by
  cases halloc : m.malloc.1 with
  | false =>
    simp only [create_new_transaction, halloc, if_true] at h
    split at h <;> cases h
  | true =>
    simp only [create_new_transaction, halloc, Bool.true_eq_false, if_false] at h
    split at h
    · cases h
    · cases h
      exact ⟨rfl, rfl⟩

/-- A record that is just created is found by its identifier, and every other identifier leads
where it led before, exactly where the array of the record holds the identifier whole. -/
theorem found_again_iff (m m' : Machine) (own : Identifier) (created : Nat) (hown : own.Parsed) :
    (m.worker.transactions.Sound →
      create_new_transaction m (some own.text) own.length = (some created, m') →
      (FoundAgain Identifier.key (transaction_by m) (transaction_by m') own created ↔
        own.Fits SIP_BRANCH_MAX_LENGTH)) ∧
    (m.worker.calls.Sound →
      create_new_call m (some own.text) own.length = (some created, m') →
      (FoundAgain Identifier.key (call_by m) (call_by m') own created ↔ own.Fits SIP_CALL_ID_MAX_LENGTH)) ∧
    (m.worker.dialogs.Sound →
      create_new_dialog m (some own.text) own.length = (some created, m') →
      ∃ d, m'.worker.dialogs.heap.cells created = some d ∧
        (FoundAgain tags_key (dialog_by m) (dialog_by m') (own, some (generated d)) created ↔
          own.Fits SIP_TAG_MAX_LENGTH)) := by
  refine ⟨fun hsound hcreate => ?_, fun hsound hcreate => ?_, fun hsound hcreate => ?_⟩
  · obtain ⟨rfl, hstore⟩ := created_transaction hcreate
    have hafter : ∀ i, transaction_by m' i = (m.worker.transactions.push
        (new_transaction own.text own.length)).find (is_branch i) := by
      intro i
      rw [← hstore]
      exact transaction_by_eq (hstore ▸ hsound.push _) i
    rw [foundAgain_push hsound (transaction_by_eq hsound) hafter]
    exact stored_iff hown
  · obtain ⟨env, -, hnone | hsome⟩ := create_new_call_spec m own.text own.length
    · rw [hnone] at hcreate
      cases hcreate
    · rw [hsome] at hcreate
      cases hcreate
      rw [foundAgain_push hsound (call_by_eq hsound) (call_by_eq (hsound.push _))]
      exact stored_iff hown
  · obtain ⟨env, -, hnone | ⟨to_tag, -, -, hsome⟩⟩ := create_new_dialog_spec m own.text hown.nonempty
    · rw [hnone] at hcreate
      cases hcreate
    · rw [hsome] at hcreate
      cases hcreate
      refine ⟨_, Heap.cells_alloc_self _ _, ?_⟩
      rw [foundAgain_push hsound (dialog_by_eq hsound) (dialog_by_eq (hsound.push _))]
      exact stored_tags_iff hown rfl rfl

/-- A branch one character longer than the array of a transaction. -/
def long_branch : Identifier := ⟨List.replicate 65 97, 65⟩

def short_identifier : Identifier := ⟨ascii "z9hG4bK5", 8⟩

/-- What is created on a worker that holds a call with two transactions. -/
private theorem created_in_call :
    (program.follow Run.started first_call).map (fun run : Run =>
      let m := run.start .obliging
      let own := short_identifier
      ((create_new_transaction m (some own.text) own.length).1, (create_new_call m (some own.text) own.length).1,
        (create_new_dialog m (some own.text) own.length).1)) = some (some 2, some 1, some 1) := by
  decide +kernel

theorem short_identifier_found_again :
    ∃ run, program.Reachable run ∧
      let m := run.start .obliging
      let own := short_identifier
      FoundAgain Identifier.key (transaction_by m)
          (transaction_by (create_new_transaction m (some own.text) own.length).2) own 2 ∧
        FoundAgain Identifier.key (call_by m) (call_by (create_new_call m (some own.text) own.length).2) own 1 ∧
        ∃ d, (create_new_dialog m (some own.text) own.length).2.worker.dialogs.heap.cells 1 = some d ∧
          FoundAgain tags_key (dialog_by m) (dialog_by (create_new_dialog m (some own.text) own.length).2)
            (own, some (generated d)) 1 := by
  obtain ⟨run, hrun, hcreated⟩ := Option.map_eq_some_iff.mp created_in_call
  simp only [Prod.mk.injEq] at hcreated
  obtain ⟨htransaction, hcall, hdialog⟩ := hcreated
  have hreach := reachable_of_follow hrun
  have hworker := Reachable.wellFormed hreach
  have hown : short_identifier.Parsed := ⟨by decide, .inl (by decide), by decide, by decide⟩
  have hexact := fun created m' => found_again_iff (run.start .obliging) m' short_identifier created hown
  refine ⟨run, hreach, ((hexact 2 _).1 hworker.transactions (Prod.ext htransaction rfl)).mpr (by decide),
    ((hexact 1 _).2.1 hworker.calls (Prod.ext hcall rfl)).mpr (by decide), ?_⟩
  obtain ⟨d, hd, hiff⟩ := (hexact 1 _).2.2 hworker.dialogs (Prod.ext hdialog rfl)
  exact ⟨d, hd, hiff.mpr (by decide)⟩

theorem long_branch_lost :
    ¬ ∀ (m m' : Machine) (own : Identifier) (created : Nat), own.Parsed → m.worker.transactions.Sound →
      create_new_transaction m (some own.text) own.length = (some created, m') →
      FoundAgain Identifier.key (transaction_by m) (transaction_by m') own created := by
  intro hall
  have hfound := (hall (Run.started.start .obliging) _ long_branch 0 ⟨by decide, .inl (by decide), by decide, by decide⟩
    Store.sound_empty rfl).itself long_branch rfl
  exact absurd hfound (by decide +kernel)

end mock_uas.sip_server
