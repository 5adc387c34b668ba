import MockUas.Server.Hangup
import MockUas.Server.Links
import MockUas.Server.Readback

open clib
open mock_uas.sip_message
open mock_uas.sip_utils

namespace mock_uas.sip_server

/-- An INVITE whose From value ends in its only parameter, a tag that a dialog stores whole,
and that has no parameter from its To value on. -/
structure BasicInvite (invite : sip_message_t) : Prop where
  method : invite.method_type = .INVITE
  from_ : ∃ front tag, slice_text invite.buffer invite.from_ invite.from_length =
    some (front ++ ascii ";tag=" ++ tag) ∧ SEMICOLON ∉ front ∧ SEMICOLON ∉ tag ∧ 1 ≤ tag.length ∧
    tag.length ≤ SIP_TAG_MAX_LENGTH
  to_ : SEMICOLON ∉ cstr invite.buffer (invite.to_.getD 0)

/-- A datagram carries a complete response, in which the scanner finds that To value. -/
def CarriesTo (s : Sent) (value : Option Bytes) : Prop :=
  ∃ response : Datagram, s.bytes = response.bytes ∧ s.beyond = 0 ∧
    FindsHeader (buffered response) HEADER_NAME_TO value

/-- A request opens a transaction and is answered with a 200 that goes out and fits into the
response array. -/
structure AnsweredOk (run : Run) (input : Input) (request : sip_message_t) (run' : Run) (s : Sent) : Prop where
  opens : Opens run request input
  step : run.step input = ok run'
  sent : ∃ sends, run'.sent = run.sent ++ sends ∧ s ∈ sends
  status_code : s.status_code = RESPONSE_CODE_200
  success : s.success = true
  fits : s.message_length ≤ BUFFER_SIZE - 1

/-- A BYE from the caller of an INVITE, with the To value of the 200 that answered it. -/
structure FollowsUp (invite : sip_message_t) (s : Sent) (bye : sip_message_t) : Prop where
  method : bye.method_type = .BYE
  from_ : slice_text bye.buffer bye.from_ bye.from_length = slice_text invite.buffer invite.from_ invite.from_length
  to_ : CarriesTo s (slice_text bye.buffer bye.to_ bye.to_length)

/-- A value ends in a tag, and has the tag nowhere else. -/
def TaggedOnce (value : Option Bytes) (tag : Bytes) : Prop :=
  ∃ front, value = some (front ++ ascii ";tag=" ++ tag) ∧
    ∀ before after, front ++ ascii ";tag=" ++ tag = before ++ tag ++ after → after = []

/-- A From value that ends in its only parameter gives a request its From tag. -/
private theorem from_tag_of_accepted {datagram : Datagram} {client_addr : sockaddr_in} {message : sip_message_t}
    (haccepted : Accepted datagram client_addr message) {front tag : Bytes}
    (hvalue : slice_text message.buffer message.from_ message.from_length = some (front ++ ascii ";tag=" ++ tag))
    (hfront : SEMICOLON ∉ front) :
    message.from_tag_length = (tag.takeWhile (· != CR)).length ∧
      (from_tag_text message).take message.from_tag_length = tag.takeWhile (· != CR) := by
  obtain ⟨hbuf, hrecorded⟩ := haccepted.recorded
  rw [← hbuf] at hrecorded
  obtain ⟨position, hposition, hlength, htag⟩ := tag_of_value (hbuf ▸ buffered_spec datagram) hrecorded.from_
    hrecorded.from_tag hvalue hfront
  rw [from_tag_text, hposition]
  exact ⟨hlength, htag⟩

private theorem to_tag_of_accepted {datagram : Datagram} {client_addr : sockaddr_in} {message : sip_message_t}
    (haccepted : Accepted datagram client_addr message) {front tag : Bytes}
    (hvalue : slice_text message.buffer message.to_ message.to_length = some (front ++ ascii ";tag=" ++ tag))
    (hfront : SEMICOLON ∉ front) (htag : CR ∉ tag) :
    ∃ position, message.to_tag = some position ∧ message.to_tag_length = tag.length ∧
      (cstr message.buffer position).take tag.length = tag := by
  obtain ⟨hbuf, hrecorded⟩ := haccepted.recorded
  rw [← hbuf] at hrecorded
  obtain ⟨position, hposition, hlength, htext⟩ := tag_of_value (hbuf ▸ buffered_spec datagram) hrecorded.to_
    hrecorded.to_tag hvalue hfront
  have hall : tag.takeWhile (· != CR) = tag := by
    rw [List.takeWhile_eq_self_iff]
    intro b hb
    have hne : b ≠ CR := fun he => htag (he ▸ hb)
    simpa using hne
  rw [hlength, hall] at htext
  exact ⟨position, hposition, by rw [hlength, hall], htext⟩

/-- What a To value has, the text of its request has. -/
private theorem to_value_infix {datagram : Datagram} {client_addr : sockaddr_in} {message : sip_message_t}
    (haccepted : Accepted datagram client_addr message) :
    cstr message.buffer (message.to_.getD 0) <:+ cstr message.buffer 0 ∧
      value_at message.buffer message.to_ message.to_length <+: cstr message.buffer (message.to_.getD 0) ∧
      slice_text message.buffer message.to_ message.to_length =
        some (value_at message.buffer message.to_ message.to_length) := by
  obtain ⟨hbuf, hrecorded⟩ := haccepted.recorded
  rw [← hbuf] at hrecorded
  obtain ⟨value, hto, hvalue, -⟩ := hrecorded.to_
  have hslice := (echoes_of_accepted haccepted).to_.slice
  rw [hto, Option.getD_some, cstr_of_header_value hvalue] at *
  exact ⟨List.drop_suffix _ _, by rw [value_at, cstr_of_header_value hvalue]; exact List.take_prefix _ _, hslice⟩

/-- A dialog that an INVITE began is found by its two tags. -/
private theorem matches_tags_of_begun {invite bye : sip_message_t} {transaction : Nat} {call : Option Nat}
    {state : sip_dialog_state_t} {d d' : sip_dialog_t} (hbegun : Begun invite transaction call state d)
    (htags : tags_of d' = tags_of d) (hfits : invite.from_tag_length ≤ SIP_TAG_MAX_LENGTH)
    (hlength : bye.from_tag_length = invite.from_tag_length)
    (hfrom : (from_tag_text bye).take bye.from_tag_length = (from_tag_text invite).take invite.from_tag_length)
    {position : Nat} (hposition : bye.to_tag = some position) (hto_length : bye.to_tag_length = SIP_BUILD_TAG_LENGTH)
    (hto : (cstr bye.buffer position).take SIP_BUILD_TAG_LENGTH = d.to_tag.bytes) : matches_tags bye d' = true := by
  obtain ⟨hfrom_tags, hto_tags⟩ := Prod.mk.inj htags
  obtain ⟨hfrom_tag, hfrom_length⟩ := Prod.mk.inj hfrom_tags
  obtain ⟨hto_tag, hto_tag_length⟩ := Prod.mk.inj hto_tags
  obtain ⟨to_tag, -, -, rfl⟩ := hbegun
  have hbytes : d'.from_tag.bytes = (from_tag_text invite).take invite.from_tag_length := by
    have hsmall : invite.from_tag_length < 2 ^ 31 := hfits.trans_lt (by decide)
    have hclean : NUL ∉ precision (intCast invite.from_tag_length) (from_tag_text invite) :=
      nul_not_mem_precision (nul_not_mem_cstr _ _)
    rw [hfrom_tag]
    change (printed SIP_TAG_MAX_LENGTH _).bytes = _
    rw [bytes_printed _ hclean, precision_of_small hsmall, List.take_take, Nat.min_eq_right hfits]
  have hto_bytes := List.length_take_le SIP_BUILD_TAG_LENGTH (cstr bye.buffer position)
  rw [hto, ← hto_tag] at hto_bytes
  simp only [matches_tags, hposition, Bool.and_eq_true, beq_iff_eq, strncmp_eq_true_iff]
  refine ⟨⟨hfrom_length.trans hlength.symm, ?_⟩, hto_tag_length.trans hto_length.symm, ?_⟩
  · rw [hbytes, hfrom, hlength, List.take_take, Nat.min_self]
  · rw [hto_length, hto, hto_tag, List.take_of_length_le (hto_tag ▸ hto_bytes)]

/-- A dialog that a request's To tag leads to has that tag. -/
private theorem to_tag_of_matches {bye : sip_message_t} {d e : sip_dialog_t} (hown : OwnTag e) {position : Nat}
    (hposition : bye.to_tag = some position) (hto_length : bye.to_tag_length = SIP_BUILD_TAG_LENGTH)
    (hto : (cstr bye.buffer position).take SIP_BUILD_TAG_LENGTH = d.to_tag.bytes) (h : matches_tags bye e = true) :
    e.to_tag = d.to_tag := by
  simp only [matches_tags, hposition, Bool.and_eq_true, beq_iff_eq, strncmp_eq_true_iff] at h
  obtain ⟨-, -, htake⟩ := h
  rw [hto_length, hto, List.take_of_length_le hown.bytes.1.le] at htake
  exact Text.ext htake

/-- A BYE is matched to a dialog, answered with a 200 that has the BYE's To value, and
terminates the dialog and its call. -/
structure Closes (run : Run) (input : Input) (bye : sip_message_t) (dialog call : Nat) (tag : Bytes) (run' : Run)
    (r : Sent) : Prop where
  found : dialog_for run.worker bye = some dialog
  step : run.step input = ok run'
  hung_up : HungUp run.worker run'.worker dialog call
  sent : run'.sent = run.sent ++ [r]
  transaction : r.transaction = some run.worker.transactions.heap.next
  status_code : r.status_code = RESPONSE_CODE_200
  tagged_once : TaggedOnce (slice_text bye.buffer bye.to_ bye.to_length) tag
  to_ : r.message_length ≤ BUFFER_SIZE - 1 → CarriesTo r (slice_text bye.buffer bye.to_ bye.to_length)
  reads_back : r.message_length ≤ BUFFER_SIZE - 1 → ∃ response : Datagram, r.bytes = response.bytes ∧
    ReadsBack bye RESPONSE_CODE_200 RESPONSE_TEXT_200_OK [] response

/-- A request that opens a transaction has a fate. -/
private theorem Run.Stepped.fate {run run' : Run} {input : Input} {message : sip_message_t}
    (h : Run.Stepped run input run') (hopens : Opens run message input) :
    ∃ address t sends, Fate run.worker ⟨address, message⟩ run.worker.transactions.heap.next t run'.worker sends ∧
      run'.sent = run.sent ++ sends := by
  cases h with
  | unhandled _ hrejected => exact absurd hopens.1 (hrejected message)
  | response => exact hopens.elim
  | @request _ _ address _ _ _ haccepted hhandled =>
    obtain ⟨haccepted', hnew, hmalloc⟩ := hopens
    obtain rfl := accepted_unique haccepted haccepted'
    cases hhandled with
    | unallocated _ hfails => exact absurd hmalloc (Bool.eq_false_iff.mp hfails)
    | known hfound => cases hnew.symm.trans hfound
    | @opened t sends _ _ _ hopened =>
      exact ⟨address, t, sends, hopened.fate, congrArg (run.sent ++ ·) hopened.conversed.sent⟩
  | delete => exact hopens.elim

/-- A 200 that goes out is the final response. -/
private theorem Answer.final_ok {transaction : Nat} {original : Owned sip_message_t} {t : sip_transaction_t}
    {sends : List Sent} (h : Answer transaction original t sends) {s : Sent} (hs : s ∈ sends)
    (hcode : s.status_code = RESPONSE_CODE_200) (hsuccess : s.success = true) :
    t.final_response_code = 200 ∧ s.dialog = t.dialog := by
  obtain ⟨contents, provisional, success, -, -, -, rfl, hprovisional⟩ := h
  rcases List.mem_append.mp hs with hs | hs
  · have hmem : s.status_code ∈ (provisional.filter (·.success)).map (·.status_code) :=
      List.mem_map_of_mem (List.mem_filter.mpr ⟨hs, hsuccess⟩)
    have hlow := hprovisional.codes.subset hmem
    rw [hcode] at hlow
    exact absurd hlow (by decide)
  · obtain rfl := List.mem_singleton.mp hs
    exact ⟨hcode, rfl⟩

/-- An INVITE that a 200 went out for has set up a dialog and a call. -/
private theorem Fate.set_up {before after : worker_thread_t} {original : Owned sip_message_t} {transaction : Nat}
    {t : sip_transaction_t} {sends : List Sent} (h : Fate before original transaction t after sends)
    (hmethod : original.contents.method_type = .INVITE) {s : Sent} (hs : s ∈ sends)
    (hcode : s.status_code = RESPONSE_CODE_200) (hsuccess : s.success = true) :
    s.dialog = some before.dialogs.heap.next ∧ ∃ d, after.dialogs.heap.cells before.dialogs.heap.next = some d ∧
      Begun original.contents transaction (some before.calls.heap.next) .CONFIRMED d ∧
      call_phase after before.calls.heap.next = some .ESTABLISHED := by
  have hfails : Answer transaction original t sends → t.final_response_code = 500 → False := by
    intro hanswer hfinal
    have hok := (hanswer.final_ok hs hcode hsuccess).1
    rw [hfinal] at hok
    cases hok
  cases h with
  | reinvite _ _ _ _ _ _ _ _ _ hsends =>
    rw [hsends] at hs
    cases hs
  | acked hother =>
    rw [hmethod] at hother
    cases hother
  | refused hother => exact absurd hmethod hother
  | hung_up hother =>
    rw [hmethod] at hother
    cases hother
  | failed_alone _ _ _ _ hfinal hanswer => exact (hfails hanswer hfinal).elim
  | failed_in_dialog _ _ _ _ hfinal hanswer => exact (hfails hanswer hfinal).elim
  | failed_in_call _ _ _ _ hfinal hanswer => exact (hfails hanswer hfinal).elim
  | @established d _ _ hdialog _ _ hanswer hbegun hdialogs hcalls =>
    refine ⟨(hanswer.final_ok hs hcode hsuccess).2.trans hdialog, d, ?_, hbegun, ?_⟩
    · rw [hdialogs]
      exact Heap.cells_alloc_self _ _
    · rw [call_phase, hcalls, Store.heap_push, Heap.cells_alloc_self]
      rfl

/-- A BYE in an established dialog is answered with a 200 and nothing else. -/
private theorem Fate.says_goodbye {before after : worker_thread_t} {original : Owned sip_message_t} {transaction : Nat}
    {t : sip_transaction_t} {sends : List Sent} (h : Fate before original transaction t after sends)
    (hhangs_up : HangsUp before original.contents) :
    ∃ s, sends = [s] ∧ s.transaction = some transaction ∧ s.status_code = RESPONSE_CODE_200 ∧
      s.dialog = dialog_for before original.contents := by
  obtain ⟨hmethod, dialog, d, call, hfound, -⟩ := id hhangs_up
  have hclash : original.contents.method_type ≠ .INVITE ∧ original.contents.method_type ≠ .ACK := by
    rw [hmethod]
    exact ⟨nofun, nofun⟩
  cases h with
  | reinvite hother => exact absurd hother hclash.1
  | acked hother => exact absurd hother hclash.2
  | refused _ _ hbye => exact absurd hhangs_up hbye
  | hung_up _ hfound' _ _ _ _ hdialog _ hcode hanswer =>
    obtain ⟨contents, provisional, success, -, -, -, rfl, hprovisional⟩ := hanswer
    have hnil : provisional = [] := by
      by_contra hne
      exact hclash.1 (hprovisional.invite hne)
    subst hnil
    exact ⟨_, rfl, rfl, hcode, hdialog.trans hfound'.symm⟩
  | failed_alone hother => exact absurd hother hclash.1
  | failed_in_dialog hother => exact absurd hother hclash.1
  | failed_in_call hother => exact absurd hother hclash.1
  | established hother => exact absurd hother hclash.1

theorem request_accepted {run : Run} {message : sip_message_t} {input : Input} (h : Opens run message input) :
    ∃ datagram client_addr, Accepted datagram client_addr message := by
  cases input with
  | incoming datagram client_addr => exact ⟨datagram, client_addr, h.1⟩
  | response => exact h.elim
  | delete => exact h.elim

private theorem enabled_of_opens {run : Run} {message : sip_message_t} {input : Input} (h : Opens run message input) :
    program.enabled run input := by
  cases input with
  | incoming => trivial
  | response => exact h.elim
  | delete => exact h.elim

/-- A new BYE whose tags lead to a dialog is a BYE for it. -/
private theorem byeFor_of_opens {run : Run} {bye : sip_message_t} {input : Input} {dialog : Nat}
    (hopens : Opens run bye input) (hmethod : bye.method_type = .BYE)
    (hfound : dialog_for run.worker bye = some dialog) : ByeFor run dialog input := by
  cases input with
  | incoming => exact ⟨bye, hopens.1, hmethod, hopens.2.1, hopens.2.2, hfound⟩
  | response => exact hopens.elim
  | delete => exact hopens.elim

namespace AnsweredOk

variable {run run' : Run} {invite : sip_message_t} {input : Input} {s : Sent}
  (h : AnsweredOk run input invite run' s) (hworker : WellFormed run.worker)
include h hworker

/-- An INVITE that is answered with 200 begins a dialog and establishes its call. -/
private theorem begins (hmethod : invite.method_type = .INVITE) :
    ∃ dialog call transaction d, s.dialog = some dialog ∧ run.worker.dialogs.heap.cells dialog = none ∧
      run'.worker.dialogs.heap.cells dialog = some d ∧
      Begun invite transaction (some call) .CONFIRMED d ∧ Established run'.worker dialog call := by
  have hstepped := (step_ends hworker input).of_eq_ok h.step
  obtain ⟨address, t, sends, hfate, hsends⟩ := hstepped.fate h.opens
  obtain ⟨sends', hsends', hs⟩ := h.sent
  obtain rfl := List.append_cancel_left (hsends.symm.trans hsends')
  obtain ⟨hdialog, d, hd, hbegun, hcall⟩ := hfate.set_up hmethod hs h.status_code h.success
  refine ⟨_, _, _, d, hdialog, Heap.cells_next _, hd, hbegun, ?_⟩
  refine (hstepped.wellFormed hworker).established_iff.mpr ⟨?_, hcall⟩
  obtain ⟨to_tag, -, -, rfl⟩ := hbegun
  rw [dialog_phase, hd, Option.map_some]

/-- The To value of the 200 is that of the INVITE with the dialog's own tag. -/
private theorem carries_tag (hown : ∀ a d, run.worker.dialogs.heap.cells a = some d → OwnTag d) {dialog : Nat}
    {d : sip_dialog_t} (hdialog : s.dialog = some dialog) (hd : run'.worker.dialogs.heap.cells dialog = some d)
    (hfresh : ¬ d.to_tag.bytes <:+: cstr invite.buffer 0) :
    OwnTag d ∧ ∀ value, CarriesTo s value → value =
      some (value_at invite.buffer invite.to_ invite.to_length ++ ascii ";tag=" ++ d.to_tag.bytes) := by
  obtain ⟨datagram, client_addr, haccepted⟩ := request_accepted h.opens
  obtain ⟨hown', sends, hsends, hwritten⟩ := step_serves hworker hown h.opens h.step
  obtain ⟨sends', hsends', hs⟩ := h.sent
  obtain rfl := List.append_cancel_left (hsends.symm.trans hsends')
  have hplain : ∀ line ∈ status_lines, line.1 < 2 ^ 31 ∧ Plain line.2 := by decide
  obtain ⟨status_code, reason, hmem, -, -, hcarries⟩ := hwritten s hs
  obtain ⟨hsmall, hreason⟩ := hplain _ hmem
  obtain ⟨hsuffix, -, hslice⟩ := to_value_infix haccepted
  have htag : tag_for run'.worker.dialogs s.dialog invite = ascii ";tag=" ++ d.to_tag.bytes := by
    have hnone : infixIdx d.to_tag.bytes (cstr invite.buffer (invite.to_.getD 0)) = none := by
      rw [infixIdx_eq_none_iff (List.length_pos_iff.mp (by rw [(hown' _ d hd).bytes.1]; decide))]
      exact fun hin => hfresh (hin.trans hsuffix.isInfix)
    simp only [tag_for, hdialog, Option.bind_some, hd, appended_tag, hnone]
  have happendable : Appendable (tag_for run'.worker.dialogs s.dialog invite) := by
    have happended := (hown' _ d hd).appendable invite
    rwa [show appended_tag d invite = tag_for run'.worker.dialogs s.dialog invite by
      simp only [tag_for, hdialog, Option.bind_some, hd]] at happended
  obtain ⟨response, hbytes, -, hreads⟩ := hcarries.reads_back (echoes_of_accepted haccepted) hsmall hreason happendable
    h.fits
  refine ⟨hown' _ d hd, ?_⟩
  rintro value ⟨response', hbytes', -, hfinds⟩
  obtain rfl : response = response' := by
    cases response
    cases response'
    congr
    exact hbytes.symm.trans hbytes'
  rw [← hreads.to_.unique hfinds, hslice, htag, Option.map_some, List.append_assoc]

end AnsweredOk

/-- What a dialog with an established call keeps until a BYE comes for it. -/
private structure OnCall (worker : worker_thread_t) (dialog call : Nat) (d : sip_dialog_t) : Prop where
  wellFormed : WellFormed worker
  established : Established worker dialog call
  tags : ∃ d', worker.dialogs.heap.cells dialog = some d' ∧ tags_of d' = tags_of d

private theorem OnCall.path {run run' : Run} {dialog call : Nat} {d : sip_dialog_t}
    (h : OnCall run.worker dialog call d)
    (hpath : Transitions.Path program (fun run input => ¬ ByeFor run dialog input) run run') :
    OnCall run'.worker dialog call d := by
  refine hpath.preserves (P := fun run => OnCall run.worker dialog call d) ?_ h
  rintro run input run' - hbye hstep ⟨hworker, hestablished, d₀, hd₀, htags₀⟩
  have hstepped := (step_ends hworker input).of_eq_ok hstep
  have hafter := hstepped.established_stays hworker hestablished hbye
  obtain ⟨d', hd', -⟩ := hafter.confirmed
  refine ⟨hstepped.wellFormed hworker, hafter, d', hd', ?_⟩
  rcases hstepped.tags hd' with ⟨d₁, hd₁, htags₁⟩ | ⟨hnext, -⟩
  · rw [hd₀, Option.some.injEq] at hd₁
    subst hd₁
    exact htags₁.symm.trans htags₀
  · exact absurd hnext (Heap.lt_next_of_cells hd₀).ne

section Bye

variable {invite bye : sip_message_t} {s : Sent} {d : sip_dialog_t} (hinvite : BasicInvite invite)
  (hfollows : FollowsUp invite s bye) (hown : OwnTag d)
  (hcarries : ∀ value, CarriesTo s value → value =
    some (value_at invite.buffer invite.to_ invite.to_length ++ ascii ";tag=" ++ d.to_tag.bytes))
include hfollows hcarries

private theorem bye_to_value : slice_text bye.buffer bye.to_ bye.to_length =
    some (value_at invite.buffer invite.to_ invite.to_length ++ ascii ";tag=" ++ d.to_tag.bytes) :=
  hcarries _ hfollows.to_

include hown

/-- The To value of the BYE has the tag once. -/
private theorem bye_tagged_once {datagram : Datagram} {client_addr : sockaddr_in}
    (haccepted : Accepted datagram client_addr invite) (hfresh : ¬ d.to_tag.bytes <:+: cstr invite.buffer 0) :
    TaggedOnce (slice_text bye.buffer bye.to_ bye.to_length) d.to_tag.bytes := by
  obtain ⟨hlength, hdigits⟩ := hown.bytes
  obtain ⟨hsuffix, hbegins, -⟩ := to_value_infix haccepted
  refine ⟨_, bye_to_value hfollows hcarries, fun before after hsplit => ?_⟩
  refine occurs_at_end ?_ ?_ (by decide) (List.length_pos_iff.mp (by rw [hlength]; decide)) hsplit
  · exact fun hin => hfresh (hin.trans (hbegins.isInfix.trans hsuffix.isInfix))
  · have hapart : (ascii ";tag=").all (fun b => !isdigit b) = true := by decide
    intro b hb hmem
    have hnot := List.all_eq_true.mp hapart b hb
    rw [hdigits b hmem] at hnot
    cases hnot

/-- The server finds the tag in the BYE, and appends it no second time. -/
private theorem bye_appended_tag {datagram : Datagram} {client_addr : sockaddr_in}
    (haccepted : Accepted datagram client_addr bye) {d' : sip_dialog_t} (htags : tags_of d' = tags_of d) :
    appended_tag d' bye = [] := by
  obtain ⟨-, hbegins, hslice⟩ := to_value_infix haccepted
  rw [bye_to_value hfollows hcarries, Option.some.injEq] at hslice
  have htag : d'.to_tag = d.to_tag := (Prod.mk.inj (Prod.mk.inj htags).2).1
  have hin : d.to_tag.bytes <:+: cstr bye.buffer (bye.to_.getD 0) := by
    rw [← hslice] at hbegins
    exact (List.suffix_append _ _).isInfix.trans hbegins.isInfix
  cases hidx : infixIdx d.to_tag.bytes (cstr bye.buffer (bye.to_.getD 0)) with
  | none =>
    rw [infixIdx_eq_none_iff (List.length_pos_iff.mp (by rw [hown.bytes.1]; decide))] at hidx
    exact absurd hin hidx
  | some k => simp only [appended_tag, htag, hidx]

include hinvite

/-- The BYE leads to the dialog, as long as no other dialog has the same own tag. -/
private theorem bye_leads {datagram datagram' : Datagram} {client_addr client_addr' : sockaddr_in}
    (haccepted : Accepted datagram client_addr invite) (haccepted' : Accepted datagram' client_addr' bye)
    {transaction : Nat} {call : Option Nat} {state : sip_dialog_state_t} (hbegun : Begun invite transaction call state d)
    {worker : worker_thread_t} (hworker : WellFormed worker)
    (howns : ∀ a e, worker.dialogs.heap.cells a = some e → OwnTag e) {dialog : Nat} {d' : sip_dialog_t}
    (hd' : worker.dialogs.heap.cells dialog = some d') (htags : tags_of d' = tags_of d)
    (hunique : ∀ a e, a ≠ dialog → worker.dialogs.heap.cells a = some e → e.to_tag ≠ d.to_tag) :
    dialog_for worker bye = some dialog := by
  obtain ⟨front, tag, hvalue, hfront, -, -, hfits⟩ := hinvite.from_
  obtain ⟨hlength, hfrom⟩ := from_tag_of_accepted haccepted hvalue hfront
  obtain ⟨hlength', hfrom'⟩ := from_tag_of_accepted haccepted' (hfollows.from_.trans hvalue) hfront
  obtain ⟨hto_length, hdigits⟩ := hown.bytes
  obtain ⟨-, hbegins, -⟩ := to_value_infix haccepted
  have hto_front : SEMICOLON ∉ value_at invite.buffer invite.to_ invite.to_length :=
    fun hmem => hinvite.to_ (hbegins.subset hmem)
  have hcr : CR ∉ d.to_tag.bytes := fun hmem => absurd (hdigits CR hmem) (by decide)
  obtain ⟨position, hposition, hlength_to, hto⟩ := to_tag_of_accepted haccepted' (bye_to_value hfollows hcarries)
    hto_front hcr
  rw [hto_length] at hlength_to hto
  have hsmall : invite.from_tag_length ≤ SIP_TAG_MAX_LENGTH := by
    rw [hlength]
    exact (List.takeWhile_prefix _).length_le.trans hfits
  refine hworker.dialogs.first_eq_some_of_unique hd' ?_ ?_
  · exact matches_tags_of_begun hbegun htags hsmall (hlength'.trans hlength.symm) (hfrom'.trans hfrom.symm) hposition
      hlength_to hto
  · intro a e he hmatches
    by_contra hne
    exact hunique a e hne he (to_tag_of_matches (howns a e he) hposition hlength_to hto hmatches)

end Bye

/-- What the transaction of the BYE sends is the 200 to it. -/
private theorem bye_answered {run run' : Run} {input : Input} {bye : sip_message_t} {dialog call : Nat} {d : sip_dialog_t}
    (hworker : WellFormed run.worker) (hown : ∀ a d, run.worker.dialogs.heap.cells a = some d → OwnTag d)
    (hopens : Opens run bye input) (hmethod : bye.method_type = .BYE) (hstep : run.step input = ok run')
    (hestablished : Established run.worker dialog call) (hfound : dialog_for run.worker bye = some dialog)
    (hd : run.worker.dialogs.heap.cells dialog = some d) :
    ∃ (r : Sent) (d' : sip_dialog_t), run'.sent = run.sent ++ [r] ∧ r.transaction = some run.worker.transactions.heap.next ∧
      r.status_code = RESPONSE_CODE_200 ∧ run'.worker.dialogs.heap.cells dialog = some d' ∧ tags_of d' = tags_of d ∧
      Carries r (formatted bye RESPONSE_CODE_200 RESPONSE_TEXT_200_OK (appended_tag d' bye)) := by
  have hstepped := (step_ends hworker input).of_eq_ok hstep
  obtain ⟨address, t, sends, hfate, hsends⟩ := hstepped.fate hopens
  obtain ⟨e, he, hconfirmed, hcall⟩ := hestablished.confirmed
  obtain ⟨r, rfl, htransaction, hcode, hdialog⟩ := hfate.says_goodbye
    ⟨hmethod, dialog, e, call, hfound, he, hconfirmed, hcall⟩
  obtain ⟨-, sends', hsends', hwritten⟩ := step_serves hworker hown hopens hstep
  obtain rfl := List.append_cancel_left (hsends.symm.trans hsends')
  obtain ⟨status_code, reason, hmem, hcode', hlive, hcarries⟩ := hwritten r List.mem_cons_self
  have hline : ∀ line ∈ status_lines, line.1 = RESPONSE_CODE_200 → line.2 = RESPONSE_TEXT_200_OK := by decide
  have hsame : status_code = RESPONSE_CODE_200 := by
    rw [hcode] at hcode'
    exact Int.ofNat.inj hcode'.symm
  have hreason : reason = RESPONSE_TEXT_200_OK := hline _ hmem hsame
  have hlinked : r.dialog = some dialog := hdialog.trans hfound
  obtain ⟨d', hd'⟩ := Option.ne_none_iff_exists'.mp (hlive dialog hlinked)
  refine ⟨r, d', hsends, htransaction, hcode, hd', ?_, ?_⟩
  · rcases hstepped.tags hd' with ⟨d₀, hd₀, htags⟩ | ⟨hnext, -⟩
    · rw [hd, Option.some.injEq] at hd₀
      subst hd₀
      exact htags.symm
    · exact absurd hnext (Heap.lt_next_of_cells hd).ne
  · rw [hsame, hreason, tag_for, hlinked, Option.bind_some, hd'] at hcarries
    exact hcarries

/-- The basic call closes: what the 200 to an INVITE tells its caller is enough to hang up,
whatever the worker does in between, as long as no BYE comes for the dialog and no other
dialog gets the same tag. -/
theorem basic_call_closes (run₀ : Run) (h : program.Reachable run₀) (input : Input) (invite : sip_message_t)
    (run₁ : Run) (s : Sent) (hinvite : BasicInvite invite) (hanswered : AnsweredOk run₀ input invite run₁ s) :
    ∃ dialog call d, s.dialog = some dialog ∧ run₀.worker.dialogs.heap.cells dialog = none ∧
      run₁.worker.dialogs.heap.cells dialog = some d ∧ Established run₁.worker dialog call ∧
      (¬ d.to_tag.bytes <:+: cstr invite.buffer 0 →
        ∀ run₂, Transitions.Path program (fun run input => ¬ ByeFor run dialog input) run₁ run₂ →
          (∀ a e, a ≠ dialog → run₂.worker.dialogs.heap.cells a = some e → e.to_tag ≠ d.to_tag) →
          ∀ bye input', Opens run₂ bye input' → FollowsUp invite s bye →
            ∃ run₃ r, Closes run₂ input' bye dialog call d.to_tag.bytes run₃ r) := by
  have hworker := Reachable.wellFormed h
  obtain ⟨dialog, call, transaction, d, hdialog, hnew, hd, hbegun, hestablished⟩ := hanswered.begins hworker hinvite.method
  refine ⟨dialog, call, d, hdialog, hnew, hd, hestablished, ?_⟩
  intro hfresh run₂ hpath hunique bye input' hopens hfollows
  obtain ⟨hown, hcarries⟩ := hanswered.carries_tag hworker (Reachable.own_tags h) hdialog hd hfresh
  have hworker₁ := ((step_ends hworker input).of_eq_ok hanswered.step).wellFormed hworker
  have hreachable₂ : program.Reachable run₂ := by
    refine (h.step ?_ trivial hanswered.step).append (hpath.mono fun _ _ _ => trivial)
    exact enabled_of_opens hanswered.opens
  obtain ⟨hworker₂, hestablished₂, d₂, hd₂, htags₂⟩ := OnCall.path ⟨hworker₁, hestablished, d, hd, rfl⟩ hpath
  have hown₂ := Reachable.own_tags hreachable₂
  obtain ⟨datagram, client_addr, haccepted⟩ := request_accepted hanswered.opens
  obtain ⟨datagram', client_addr', haccepted'⟩ := request_accepted hopens
  have hfound := bye_leads hinvite hfollows hown hcarries haccepted haccepted' hbegun hworker₂ hown₂ hd₂ htags₂ hunique
  have hbye := byeFor_of_opens hopens hfollows.method hfound
  obtain ⟨run₃, hstep⟩ := hbye.steps hworker₂
  obtain ⟨r, d₃, hsent, htransaction, hcode, hd₃, htags₃, hresponse⟩ := bye_answered hworker₂ hown₂ hopens hfollows.method
    hstep hestablished₂ hfound hd₂
  have happended := bye_appended_tag hfollows hown hcarries haccepted' (htags₃.trans htags₂)
  rw [happended] at hresponse
  have hreads := hresponse.reads_back (echoes_of_accepted haccepted') (by decide) (by decide) ⟨by decide, rfl⟩
  refine ⟨run₃, r, hfound, hstep, ?_, hsent, htransaction, hcode, bye_tagged_once hfollows hown hcarries haccepted hfresh,
    fun hfits => ?_, fun hfits => ?_⟩
  · exact ((step_ends hworker₂ input').of_eq_ok hstep).hangs_up hworker₂ hestablished₂ hbye
  · obtain ⟨response, hbytes, hbeyond, hresponse_reads⟩ := hreads hfits
    refine ⟨response, hbytes, hbeyond, ?_⟩
    have hto := hresponse_reads.to_
    simpa only [List.append_nil, Option.map_id'] using hto
  · obtain ⟨response, hbytes, -, hresponse_reads⟩ := hreads hfits
    exact ⟨response, hbytes, hresponse_reads⟩

/-- The To value the scanner finds in a datagram. -/
private def to_value_of (s : Sent) : Option Bytes :=
  if h : s.bytes.length < BUFFER_SIZE then
    match get_header_value (buffered ⟨s.bytes, h⟩) HEADER_NAME_TO with
    | ok (some (start, length)) => slice_text (buffered ⟨s.bytes, h⟩) (some start) length
    | _ => none
  else none

private theorem carriesTo_of_found {s : Sent} {value : Bytes} (hfound : to_value_of s = some value)
    (hbeyond : s.beyond = 0) : CarriesTo s (some value) := by
  rw [to_value_of] at hfound
  split at hfound
  · rename_i hfits
    split at hfound
    · rename_i start length hget
      have hbuffer := buffered_spec ⟨s.bytes, hfits⟩
      obtain ⟨-, -, hto, -⟩ := plain_header_names
      have hvalue := Except.ok.inj ((hbuffer.get_header_value hto).symm.trans hget)
      obtain ⟨-, hlength, hslice⟩ := header_value_text hvalue
      refine ⟨⟨s.bytes, hfits⟩, rfl, hbeyond, start, length, hget, hfound, ?_⟩
      rw [← hfound, hslice, Option.map_some, hlength]
    · cases hfound
  · cases hfound

private def first_tag : Bytes := ascii "0000000000000000"

/-- The first INVITE is answered on a worker that has just started, and the first BYE has the
To value of the 200. -/
private theorem first_call_run :
    (do
      let invite ← accepted_message first_invite ⟨2, 5060, 1⟩
      let bye ← accepted_message first_bye ⟨2, 5060, 1⟩
      let run ← program.follow Run.started [arrival first_invite .obliging]
      let s ← run.sent.getLast?
      let d ← run.worker.dialogs.heap.cells 0
      some (decide ((invite.method_type = .INVITE ∧ SEMICOLON ∉ cstr invite.buffer (invite.to_.getD 0) ∧
        slice_text invite.buffer invite.from_ invite.from_length =
          some (ascii "<sip:a@h>" ++ ascii ";tag=" ++ ascii "a") ∧
        transaction_for Run.started.worker invite = none) ∧
        (s.status_code = RESPONSE_CODE_200 ∧ s.success = true ∧ s.message_length ≤ BUFFER_SIZE - 1 ∧
          s.dialog = some 0 ∧ s.beyond = 0 ∧ to_value_of s = some (ascii "<sip:b@h>" ++ ascii ";tag=" ++ first_tag)) ∧
        (run.worker.dialogs.list = [0] ∧ d.to_tag.bytes = first_tag ∧
          infixIdx first_tag (cstr invite.buffer 0) = none) ∧
        bye.method_type = .BYE ∧ transaction_for run.worker bye = none ∧
        slice_text bye.buffer bye.from_ bye.from_length =
          slice_text invite.buffer invite.from_ invite.from_length ∧
        slice_text bye.buffer bye.to_ bye.to_length =
          some (ascii "<sip:b@h>" ++ ascii ";tag=" ++ first_tag)))) = some true := by
  decide +kernel

theorem first_call_closes :
    ∃ (bye : sip_message_t) (run₁ : Run) (dialog call : Nat) (run₃ : Run) (r : Sent),
      Accepted first_bye ⟨2, 5060, 1⟩ bye ∧
      program.follow Run.started [arrival first_invite .obliging] = some run₁ ∧
      Closes run₁ (arrival first_bye .obliging) bye dialog call (ascii "0000000000000000") run₃ r := by
  obtain ⟨invite, hinvite, hrest⟩ := Option.bind_eq_some_iff.mp first_call_run
  obtain ⟨bye, hbye, hrest⟩ := Option.bind_eq_some_iff.mp hrest
  obtain ⟨run, hrun, hrest⟩ := Option.bind_eq_some_iff.mp hrest
  obtain ⟨s, hs, hrest⟩ := Option.bind_eq_some_iff.mp hrest
  obtain ⟨d, hd, hchecked⟩ := Option.bind_eq_some_iff.mp hrest
  obtain ⟨⟨hmethod, hto, hfrom, hnew⟩, ⟨hcode, hsuccess, hfits, hdialog, hbeyond, hvalue⟩, ⟨hlist, htag, hfresh⟩,
    hbye_method, hbye_new, hbye_from, hbye_to⟩ := of_decide_eq_true (Option.some.inj hchecked)
  obtain ⟨-, hstep⟩ := Transitions.follow_single hrun
  have hreachable := reachable_of_follow hrun
  have hbasic : BasicInvite invite :=
    ⟨hmethod, ⟨_, _, hfrom, by decide, by decide, by decide, by decide⟩, hto⟩
  have hanswered : AnsweredOk Run.started (arrival first_invite .obliging) invite run s :=
    ⟨⟨accepted_iff.mpr hinvite, hnew, rfl⟩, hstep, ⟨run.sent, rfl, List.mem_of_getLast? hs⟩, hcode, hsuccess, hfits⟩
  obtain ⟨dialog, call, d', hlinked, -, hd', -, hcloses⟩ := basic_call_closes Run.started
    (.initial Run.started_initial) (arrival first_invite .obliging) invite run s hbasic hanswered
  obtain rfl : 0 = dialog := Option.some.inj (hdialog.symm.trans hlinked)
  obtain rfl : d = d' := Option.some.inj (hd.symm.trans hd')
  have hunique : ∀ a e, a ≠ 0 → run.worker.dialogs.heap.cells a = some e → e.to_tag ≠ d.to_tag := by
    intro a e hne he
    have hmem := (Reachable.wellFormed hreachable).dialogs.mem he
    rw [hlist] at hmem
    exact absurd (List.mem_singleton.mp hmem) hne
  have hfollows : FollowsUp invite s bye :=
    ⟨hbye_method, hbye_from, by rw [hbye_to]; exact carriesTo_of_found hvalue hbeyond⟩
  obtain ⟨run₃, r, hclosed⟩ := hcloses
    (by rw [htag]; exact (infixIdx_eq_none_iff (by decide)).mp hfresh) run (.refl run) hunique bye
    (arrival first_bye .obliging) ⟨accepted_iff.mpr hbye, hbye_new, rfl⟩ hfollows
  rw [htag] at hclosed
  exact ⟨bye, run, 0, call, run₃, r, accepted_iff.mpr hbye, hrun, hclosed⟩

end mock_uas.sip_server
