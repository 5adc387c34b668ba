import MockUas.Message.HeaderParams
import MockUas.Message.Lookup
import MockUas.Server.Lifecycle
import MockUas.Server.Readback

open clib
open mock_uas.sip_message
open mock_uas.sip_utils

namespace mock_uas.sip_server

/-- The value of the first header line with a name, in upper or lower case. -/
def header_in (header_name : Bytes) (lines : List Bytes) : Option Bytes :=
  (lines.find? fun line => same_name header_name (trimmed (line.takeWhile (· != COLON)))).map fun line =>
    ((line.dropWhile (· != COLON)).drop 1).dropWhile is_blank

/-- The To value of a request, and the text from it on. -/
def to_value (request : sip_message_t) : Bytes := value_at request.buffer request.to_ request.to_length

def from_to_on (request : sip_message_t) : Bytes := cstr request.buffer (request.to_.getD 0)

/-- The To value in a datagram, as far as it is text. -/
def to_header (s : Sent) : Option Bytes := header_in HEADER_NAME_TO (crlfLines (cstr s.bytes 0))

/-- A datagram that answers a request in a dialog has a To header with the dialog's tag and no other
tag. The tag is appended to a To value of the request without a tag, and one that has it is kept. -/
structure CarriesTagOnce (request : sip_message_t) (d : sip_dialog_t) (s : Sent) : Prop where
  once : (to_header s).map (params_named PARAM_NAME_TAG) = some [some d.to_tag.bytes]
  appended : params_named PARAM_NAME_TAG (to_value request) = [] →
    to_header s = some (to_value request ++ (ascii ";tag=" ++ d.to_tag.bytes))
  kept : params_named PARAM_NAME_TAG (to_value request) = [some d.to_tag.bytes] → to_header s = some (to_value request)

/-- The bytes of a response up to the end of its To line, for the request's To value. -/
def to_line_end (request : sip_message_t) (status_code : Nat) (reason : Bytes) : Nat :=
  32 + (digits status_code).length + reason.length + request.via_length + request.from_length + request.to_length

/-- The request's To value has the dialog's tag and no other, or it has no tag, ends every quoted
string and every angle bracket, and the text of the dialog's tag stands nowhere from it on. Either
way the To line of the response fits into the response array. -/
inductive AnswersOnce (request : sip_message_t) (d : sip_dialog_t) (status_code : Nat) (reason : Bytes) : Prop where
  | has_tag (htags : params_named PARAM_NAME_TAG (to_value request) = [some d.to_tag.bytes])
    (hfits : to_line_end request status_code reason ≤ BUFFER_SIZE - 1)
  | takes_tag (htags : params_named PARAM_NAME_TAG (to_value request) = []) (hbalanced : Balanced (to_value request))
    (hnot : ¬ d.to_tag.bytes <:+: from_to_on request)
    (hfits : to_line_end request status_code reason + (ascii ";tag=" ++ d.to_tag.bytes).length ≤ BUFFER_SIZE - 1)

private theorem to_value_starts (request : sip_message_t) : to_value request <+: from_to_on request := by
  rw [to_value, from_to_on]
  cases request.to_ with
  | none => exact List.nil_prefix
  | some i => exact List.take_prefix _ _

/-- A tag of the request's To value stands there. -/
private theorem infix_of_tags {request : sip_message_t} {tag : Bytes}
    (h : params_named PARAM_NAME_TAG (to_value request) = [some tag]) : tag <:+: to_value request := by
  apply @infix_of_mem_params PARAM_NAME_TAG
  rw [h]
  exact List.mem_singleton_self _

section Appended

variable {request : sip_message_t} {d : sip_dialog_t} (hown : OwnTag d)
include hown

private theorem to_tag_ne_nil : d.to_tag.bytes ≠ [] := by
  rw [← List.length_pos_iff, hown.bytes.1]
  decide

private theorem appended_tag_of_occurs (h : d.to_tag.bytes <:+: from_to_on request) : appended_tag d request = [] := by
  rw [appended_tag]
  split
  · rfl
  · rename_i hnone
    exact absurd h ((infixIdx_eq_none_iff (to_tag_ne_nil hown)).mp hnone)

private theorem appended_tag_of_absent (h : ¬ d.to_tag.bytes <:+: from_to_on request) :
    appended_tag d request = ascii ";tag=" ++ d.to_tag.bytes := by
  have hnone : infixIdx d.to_tag.bytes (cstr request.buffer (request.to_.getD 0)) = none :=
    (infixIdx_eq_none_iff (to_tag_ne_nil hown)).mpr h
  rw [appended_tag, hnone]

/-- The To value of the response has the dialog's tag and no other one exactly if the request's To
value has, or if it can take the tag, which stands nowhere from there on. -/
private theorem params_named_appended_iff :
    params_named PARAM_NAME_TAG (to_value request ++ appended_tag d request) = [some d.to_tag.bytes] ↔
      params_named PARAM_NAME_TAG (to_value request) = [some d.to_tag.bytes] ∨
        (params_named PARAM_NAME_TAG (to_value request) = [] ∧ Balanced (to_value request) ∧
          ¬ d.to_tag.bytes <:+: from_to_on request) := by
  obtain ⟨-, hdigits⟩ := hown.bytes
  by_cases hoccurs : d.to_tag.bytes <:+: from_to_on request
  · rw [appended_tag_of_occurs hown hoccurs, List.append_nil]
    simp [hoccurs]
  · have hnot : ¬ d.to_tag.bytes <:+: to_value request :=
      fun hin => hoccurs (hin.trans (to_value_starts request).isInfix)
    rw [appended_tag_of_absent hown hoccurs]
    constructor
    · intro htags
      by_cases hbalanced : Balanced (to_value request)
      · rw [params_named_balanced hdigits hbalanced] at htags
        exact .inr ⟨List.append_left_eq_self.mp htags, hbalanced, hoccurs⟩
      · refine (not_mem_params_unbalanced hdigits hbalanced hnot ?_).elim
        rw [htags]
        exact List.mem_singleton_self _
    · rintro (htags | ⟨htags, hbalanced, -⟩)
      · exact (hnot (infix_of_tags htags)).elim
      · rw [params_named_balanced hdigits hbalanced, htags, List.nil_append]

private theorem answersOnce_iff {status_code : Nat} {reason : Bytes} :
    AnswersOnce request d status_code reason ↔
      to_line_end request status_code reason + (appended_tag d request).length ≤ BUFFER_SIZE - 1 ∧
      params_named PARAM_NAME_TAG (to_value request ++ appended_tag d request) = [some d.to_tag.bytes] := by
  rw [params_named_appended_iff hown]
  constructor
  · rintro (⟨htags, hfits⟩ | ⟨htags, hbalanced, hnot, hfits⟩)
    · rw [appended_tag_of_occurs hown ((infix_of_tags htags).trans (to_value_starts request).isInfix)]
      exact ⟨hfits, .inl htags⟩
    · rw [appended_tag_of_absent hown hnot]
      exact ⟨hfits, .inr ⟨htags, hbalanced, hnot⟩⟩
  · rintro ⟨hfits, htags | ⟨htags, hbalanced, hnot⟩⟩
    · rw [appended_tag_of_occurs hown ((infix_of_tags htags).trans (to_value_starts request).isInfix)] at hfits
      exact .has_tag htags hfits
    · rw [appended_tag_of_absent hown hnot] at hfits
      exact .takes_tag htags hbalanced hnot hfits

end Appended

/-- Of the lines of a response those in front of the To line. -/
private def front_lines (request : sip_message_t) (status_code : Nat) (reason : Bytes) : List Bytes :=
  [status_line (digits status_code) reason,
    field_line COLON_SPACE (HEADER_NAME_VIA, value_at request.buffer request.via request.via_length),
    field_line COLON_SPACE (HEADER_NAME_FROM, value_at request.buffer request.from_ request.from_length)]

private def to_line (request : sip_message_t) (to_tag : Bytes) : Bytes :=
  field_line COLON_SPACE (HEADER_NAME_TO, to_value request ++ to_tag)

private theorem response_lines_eq (request : sip_message_t) (status_code : Nat) (reason to_tag : Bytes) :
    ∃ behind, response_lines request status_code reason to_tag =
      front_lines request status_code reason ++ to_line request to_tag :: behind := ⟨_, rfl⟩

private theorem length_to_line_end {request : sip_message_t} (h : Request request) (status_code : Nat)
    (reason to_tag : Bytes) :
    (joined (front_lines request status_code reason ++ [to_line request to_tag])).length =
      to_line_end request status_code reason + to_tag.length := by
  have hprotocol : SIP_PROTOCOL_AND_VERSION.length = 7 := by decide
  have hvia : HEADER_NAME_VIA.length = 3 := by decide
  have hfrom : HEADER_NAME_FROM.length = 4 := by decide
  have hto : HEADER_NAME_TO.length = 2 := by decide
  have hcolon : COLON_SPACE.length = 2 := by decide
  have hcrlf : CRLF.length = 2 := by decide
  simp only [front_lines, to_line, to_value, status_line, field_line, joined, List.flatMap_append, List.flatMap_cons,
    List.flatMap_nil, List.length_append, List.length_singleton, List.length_nil, length_value_at h.via,
    length_value_at h.from_, length_value_at h.to_, hprotocol, hvia, hfrom, hto, hcolon, hcrlf, to_line_end]
  omega

/-- A line whose first byte is another than a name's does not have that name. -/
private theorem other_name {header_name line : Bytes} {b : UInt8} (hcolon : b ≠ COLON) (hblank : is_blank b = false)
    (hother : tolower b ∉ header_name.map tolower) :
    same_name header_name (trimmed ((b :: line).takeWhile (· != COLON))) = false := by
  refine not_same_name (mem_trimmed ?_ hblank) hother
  rw [List.takeWhile_cons, if_pos (by simpa using hcolon)]
  exact List.mem_cons_self

private theorem front_lines_other (request : sip_message_t) (status_code : Nat) (reason : Bytes) :
    ∀ line ∈ front_lines request status_code reason,
      same_name HEADER_NAME_TO (trimmed (line.takeWhile (· != COLON))) = false := by
  simp only [front_lines, List.forall_mem_cons]
  exact ⟨other_name (b := 83) (by decide) (by decide) (by decide),
    other_name (b := 86) (by decide) (by decide) (by decide),
    other_name (b := 70) (by decide) (by decide) (by decide), nofun⟩

private theorem header_in_front {header_name : Bytes} {before : List Bytes} (lines : List Bytes)
    (h : ∀ line ∈ before, same_name header_name (trimmed (line.takeWhile (· != COLON))) = false) :
    header_in header_name (before ++ lines) = header_in header_name lines := by
  have hnone : before.find? (fun line => same_name header_name (trimmed (line.takeWhile (· != COLON)))) = none := by
    rw [List.find?_eq_none]
    intro line hline
    rw [h line hline]
    exact Bool.false_ne_true
  rw [header_in, List.find?_append, hnone, Option.none_or, header_in]

private theorem dropWhile_blanks {s : Bytes} (h : s.takeWhile is_separator = []) : s.dropWhile is_blank = s := by
  cases s with
  | nil => rfl
  | cons b s =>
    have hb : is_blank b = false := by
      rw [List.takeWhile_cons] at h
      split at h
      · cases h
      · rename_i hseparator
        simp only [is_separator, Bool.or_eq_true, not_or] at hseparator
        simp [is_blank, SPACE, hseparator]
    rw [List.dropWhile_cons, hb, if_neg Bool.false_ne_true]

private theorem header_in_to_line {request : sip_message_t} {to_tag : Bytes} (lines : List Bytes)
    (h : (to_value request ++ to_tag).takeWhile is_separator = []) :
    header_in HEADER_NAME_TO (to_line request to_tag :: lines) = some (to_value request ++ to_tag) := by
  have hcut : to_line request to_tag = HEADER_NAME_TO ++ COLON :: (SPACE :: (to_value request ++ to_tag)) := by
    rw [to_line, field_line, List.append_assoc]
    rfl
  obtain ⟨htake, hdrop⟩ := @cut_at COLON HEADER_NAME_TO (by decide) (SPACE :: (to_value request ++ to_tag))
  have hsame : same_name HEADER_NAME_TO (trimmed HEADER_NAME_TO) = true := by decide
  rw [header_in, List.find?_cons, hcut, htake, hsame, Option.map_some, hdrop, List.drop_one, List.tail_cons,
    List.dropWhile_cons_of_pos (by decide), dropWhile_blanks h]

/-- Lines that do not reach the end of one of the lines are in front of it. -/
private theorem prefix_front {front behind lines : List Bytes} {line : Bytes}
    (hlines : lines <+: front ++ line :: behind)
    (hshort : (joined lines).length < (joined (front ++ [line])).length) : lines <+: front := by
  have hwith : front ++ [line] <+: front ++ line :: behind := (List.prefix_append_right_inj front).mpr ⟨behind, rfl⟩
  have hnot : ¬ front ++ [line] <+: lines := by
    rintro ⟨more, rfl⟩
    rw [joined_append, List.length_append] at hshort
    omega
  rcases List.prefix_or_prefix_of_prefix hlines hwith with hle | hle
  · rcases List.prefix_concat_iff.mp hle with rfl | hle
    · exact (hnot List.prefix_rfl).elim
    · exact hle
  · exact (hnot hle).elim

/-- In what is left of a response the To header is there exactly if its line is. -/
private theorem header_in_response {request : sip_message_t} (hechoes : Echoes request) (hrequest : Request request)
    {status_code : Nat} {reason to_tag : Bytes} (hreason : Plain reason) (htag : Appendable to_tag) (n : Nat) :
    header_in HEADER_NAME_TO (crlfLines ((formatted request status_code reason to_tag).take n)) =
      if to_line_end request status_code reason + to_tag.length ≤ n then some (to_value request ++ to_tag)
      else none := by
  obtain ⟨behind, hlines⟩ := response_lines_eq request status_code reason to_tag
  have hclean : ∀ line ∈ front_lines request status_code reason ++ to_line request to_tag :: (behind ++ [[]]),
      infixIdx CRLF line = none := by
    intro line hline
    rw [← List.cons_append, ← List.append_assoc, ← hlines] at hline
    rcases List.mem_append.mp hline with hline | hline
    · exact (response_lines_clean hechoes htag hreason line hline).1
    · rw [List.mem_singleton.mp hline]
      rfl
  have hother := front_lines_other request status_code reason
  rw [formatted_eq_joined, hlines, List.append_assoc, List.cons_append, ← length_to_line_end hrequest]
  generalize front_lines request status_code reason = front at *
  split
  · rename_i hfits
    have hcut : joined (front ++ to_line request to_tag :: (behind ++ [[]])) =
        joined (front ++ [to_line request to_tag]) ++ joined (behind ++ [[]]) := by
      rw [← joined_append, List.append_assoc, List.singleton_append]
    rw [hcut, List.take_append, List.take_of_length_le hfits, crlfLines_joined_append, List.append_assoc,
      header_in_front _ hother, List.singleton_append, header_in_to_line _ (hechoes.to_.text.append htag).start]
    intro line hline
    refine hclean line ?_
    rw [← List.singleton_append, ← List.append_assoc]
    exact List.mem_append_left _ hline
  · rename_i hcut
    obtain ⟨hstarts, hlength⟩ := crlfLines_of_prefix hclean (List.take_prefix n _)
    rw [List.length_take] at hlength
    have hfront := prefix_front hstarts (by omega)
    have hall := header_in_front [] fun line hline => hother line (hfront.subset hline)
    rw [List.append_nil] at hall
    exact hall

/-- A response in a dialog carries its tag once exactly if the request's To value allows it. -/
private theorem Carries.tag_once_iff {request : sip_message_t} (hechoes : Echoes request)
    (hrequest : Request request) {status_code : Nat} {reason : Bytes} (hreason : Plain reason)
    {d : sip_dialog_t} (hown : OwnTag d) {s : Sent}
    (h : Carries s (formatted request status_code reason (appended_tag d request))) :
    CarriesTagOnce request d s ↔ AnswersOnce request d status_code reason := by
  have htag := hown.appendable request
  have hheader := @header_in_response _ hechoes hrequest status_code _ _ hreason htag (BUFFER_SIZE - 1)
  rw [← h.text (nul_not_mem_formatted hechoes htag hreason)] at hheader
  rw [answersOnce_iff hown]
  constructor
  · rintro ⟨honce, -, -⟩
    rw [to_header, hheader] at honce
    split at honce
    · rename_i hfits
      exact ⟨hfits, Option.some.inj honce⟩
    · cases honce
  · rintro ⟨hfits, htags⟩
    rw [if_pos hfits] at hheader
    refine ⟨?_, fun hnone => ?_, fun hkept => ?_⟩
    · rw [to_header, hheader, Option.map_some, htags]
    · have hnot : ¬ d.to_tag.bytes <:+: from_to_on request := by
        intro hoccurs
        rw [appended_tag_of_occurs hown hoccurs, List.append_nil, hnone] at htags
        cases htags
      rw [to_header, hheader, appended_tag_of_absent hown hnot]
    · have hoccurs := (infix_of_tags hkept).trans (to_value_starts request).isInfix
      rw [to_header, hheader, appended_tag_of_occurs hown hoccurs, List.append_nil]

/-- The transactions of a worker hold requests that the parser accepted, whatever was answered. -/
private def HoldAccepted (worker : worker_thread_t) : Prop :=
  ∀ a t opened, worker.transactions.heap.cells a = some t → t.message = some opened →
    ∃ datagram client_addr original, Accepted datagram client_addr original ∧ SameRequest opened.contents original

private theorem HoldAccepted.rewritten {worker : worker_thread_t} (h : HoldAccepted worker) {a : Nat}
    {t t' : sip_transaction_t} (ht : worker.transactions.heap.cells a = some t) (hrewritten : Rewritten t t')
    {opened' : Owned sip_message_t} (hholds' : t'.message = some opened') :
    ∃ datagram client_addr original, Accepted datagram client_addr original ∧
      SameRequest opened'.contents original := by
  cases hrewritten with
  | same he => exact h a t opened' ht (he ▸ hholds')
  | @answered opened _ output hholds he =>
    obtain ⟨datagram, client_addr, original, haccepted, hsame⟩ := h a t opened ht hholds
    subst he
    obtain rfl := Option.some.inj hholds'
    exact ⟨datagram, client_addr, original, haccepted,
      hsame.with_response (response_ne_nil haccepted.request.1) output⟩
  | terminated _ hmessage => exact h a t opened' ht (hmessage ▸ hholds')

private theorem Reachable.hold_accepted {run : Run} (h : program.Reachable run) : HoldAccepted run.worker := by
  have hboth := Transitions.ReachableWhile.invariant (P := fun run => WellFormed run.worker ∧ HoldAccepted run.worker)
    ?_ ?_ h
  · exact hboth.2
  · intro run (hinitial : run.Initial)
    refine ⟨hinitial.wellFormed, fun a t opened ht => ?_⟩
    rw [hinitial.transactions] at ht
    cases ht
  · rintro run input run' - - hstep ⟨hworker, hholds⟩
    have hstepped := (step_ends hworker input).of_eq_ok hstep
    refine ⟨hstepped.wellFormed hworker, fun a t' opened' ht' hmessage => ?_⟩
    rcases hstepped.transactions_move a t' ht' with ⟨t, ht, hrewritten⟩ | ⟨rfl, -⟩
    · exact hholds.rewritten ht hrewritten hmessage
    · rcases (hstepped.keys _).comes ht' with ⟨t, ht, -⟩ | ⟨message, hopens, -, -⟩
      · rw [Heap.cells_next] at ht
        cases ht
      · obtain ⟨u, opened, hu, hopened, hsame⟩ := hstepped.opens hopens
        obtain rfl := Option.some.inj (ht'.symm.trans hu)
        obtain rfl := Option.some.inj (hmessage.symm.trans hopened)
        cases input with
        | incoming datagram client_addr => exact ⟨datagram, client_addr, message, hopens.1, hsame⟩
        | response => exact hopens.elim
        | delete => exact hopens.elim

/-- Over a transaction that has a dialog with a tag of its own, every builder makes a response to an
accepted request that carries the tag once, exactly if its To line fits into the response array and
the request's To value allows it. All transactions of a worker that have a dialog are such, and so
it is with the responses a worker builds when a request opens one. What a worker sends again to a
copy of the request was built before and is not spoken of. -/
theorem carries_tag_once_iff (datagram : Datagram) (client_addr : sockaddr_in) (message : sip_message_t)
    (haccepted : Accepted datagram client_addr message) :
    (∀ m transaction t held builder status_code reason dialog d, Ready m transaction t held →
      SameRequest held.contents message → t.dialog = some dialog →
      m.worker.dialogs.heap.cells dialog = some d → OwnTag d → Builder builder status_code reason → Plain reason →
      ∃ (rc : Int) (m' : Machine) (s : Sent), builder m transaction = ok (rc, m') ∧ m'.sent = m.sent ++ [s] ∧
        (CarriesTagOnce message d s ↔ AnswersOnce message d status_code reason)) ∧
    (∀ run env transaction t dialog d, program.Reachable run →
      run.worker.transactions.heap.cells transaction = some t → t.dialog = some dialog →
      run.worker.dialogs.heap.cells dialog = some d → OwnTag d ∧
        ∃ (held : Owned sip_message_t) (datagram : Datagram) (client_addr : sockaddr_in) (original : sip_message_t),
          Ready (run.start env) transaction t held ∧ Accepted datagram client_addr original ∧
          SameRequest held.contents original) ∧
    ∀ run input run', program.Reachable run → Opens run message input → run.step input = ok run' →
      ∃ sends, run'.sent = run.sent ++ sends ∧ ∀ s ∈ sends, ∀ dialog, s.dialog = some dialog →
        ∃ (d : sip_dialog_t) (status_code : Nat) (reason : Bytes),
          run'.worker.dialogs.heap.cells dialog = some d ∧ s.status_code = status_code ∧
          (status_code, reason) ∈ status_lines ∧
          (CarriesTagOnce message d s ↔ AnswersOnce message d status_code reason) := by
  obtain ⟨hrequest, -⟩ := haccepted.request
  have hechoes := echoes_of_accepted haccepted
  refine ⟨?_, ?_, ?_⟩
  · intro m transaction t held builder status_code reason dialog d hready hsame hdialog hd hown hbuilder hreason
    obtain ⟨rc, m', s, hrun, hsent, hcarries⟩ := send_response_carries hready hsame status_code reason
    have htag : tag_of m t message = appended_tag d message := by
      rw [tag_of, hdialog, Option.bind_some, hd]
    rw [htag] at hcarries
    exact ⟨rc, m', s, (hbuilder.sends m transaction).trans hrun, hsent,
      hcarries.tag_once_iff hechoes hrequest hreason hown⟩
  · intro run env transaction t dialog d h ht hdialog hd
    have hworker := Reachable.wellFormed h
    obtain ⟨held, hholds, hheld⟩ := (hworker.held ht).message
    obtain ⟨datagram, client_addr, original, horiginal, hsame⟩ := Reachable.hold_accepted h transaction t held ht hholds
    refine ⟨Reachable.own_tags h dialog d hd, held, datagram, client_addr, original, ?_, horiginal, hsame⟩
    refine ⟨hworker.socket, ht, hholds, hheld, fun dialog' hdialog' => ?_⟩
    obtain rfl := Option.some.inj (hdialog.symm.trans hdialog')
    exact ⟨d, hd, hworker.tagged hd⟩
  · intro run input run' h hopens hstep
    obtain ⟨hown, sends, hsent, hwritten⟩ := step_serves (Reachable.wellFormed h) (Reachable.own_tags h) hopens hstep
    refine ⟨sends, hsent, fun s hs dialog hdialog => ?_⟩
    obtain ⟨status_code, reason, hmem, hcode, hlive, hcarries⟩ := hwritten s hs
    obtain ⟨d, hd⟩ := Option.ne_none_iff_exists'.mp (hlive dialog hdialog)
    have htag : tag_for run'.worker.dialogs s.dialog message = appended_tag d message := by
      rw [tag_for, hdialog, Option.bind_some, hd]
    rw [htag] at hcarries
    have hplain : ∀ line ∈ status_lines, Plain line.2 := by decide
    exact ⟨d, status_code, reason, hd, hcode, hmem,
      hcarries.tag_once_iff hechoes hrequest (hplain _ hmem) (hown dialog d hd)⟩

/-- The 180 to the first INVITE fits, and the INVITE's To value takes the new dialog's tag. -/
private theorem first_invite_takes_tag :
    (do
      let message ← accepted_message first_invite ⟨2, 5060, 1⟩
      let d ← (ringing message).worker.dialogs.heap.cells 0
      some (decide (to_line_end message RESPONSE_CODE_180 RESPONSE_TEXT_180_RINGING +
          (ascii ";tag=" ++ d.to_tag.bytes).length ≤ BUFFER_SIZE - 1 ∧
        params_named PARAM_NAME_TAG (to_value message) = [] ∧ Balanced (to_value message) ∧
        infixIdx d.to_tag.bytes (from_to_on message) = none))) = some true := by
  decide +kernel

theorem first_ringing_carries_tag_once :
    ∃ message, Accepted first_invite ⟨2, 5060, 1⟩ message ∧ ∃ d rc m' s,
      (ringing message).worker.dialogs.heap.cells 0 = some d ∧
      send_180_ring_response_over_transaction (ringing message) 0 = ok (rc, m') ∧
      m'.sent = (ringing message).sent ++ [s] ∧ AnswersOnce message d RESPONSE_CODE_180 RESPONSE_TEXT_180_RINGING ∧
      CarriesTagOnce message d s := by
  obtain ⟨message, hmessage, htakes⟩ := Option.bind_eq_some_iff.mp first_invite_takes_tag
  obtain ⟨d, hd, htakes⟩ := Option.bind_eq_some_iff.mp htakes
  obtain ⟨hfits, htags, hbalanced, hnone⟩ := of_decide_eq_true (Option.some.inj htakes)
  have haccepted : Accepted first_invite ⟨2, 5060, 1⟩ message := accepted_iff.mpr hmessage
  obtain ⟨hready, hown⟩ := ringing_ready haccepted.request.1
  have hanswers : AnswersOnce message d RESPONSE_CODE_180 RESPONSE_TEXT_180_RINGING :=
    .takes_tag htags hbalanced ((infixIdx_eq_none_iff (to_tag_ne_nil (hown 0 d hd))).mp hnone) hfits
  obtain ⟨hbuilders, -, -⟩ := carries_tag_once_iff first_invite ⟨2, 5060, 1⟩ message haccepted
  obtain ⟨rc, m', s, hrun, hsent, hiff⟩ := hbuilders _ _ _ _ _ _ _ _ _ hready (.refl message) rfl hd (hown 0 d hd)
    .ringing (by decide)
  exact ⟨message, haccepted, d, rc, m', s, hd, hrun, hsent, hanswers, hiff.mpr hanswers⟩

/-- An INVITE whose To value has a tag of another. -/
def tagged_invite : Datagram where
  bytes := request_text (ascii "INVITE") (ascii "z9hG4bK1") (ascii "<sip:b@h>;tag=x")
  fits := by decide +kernel

/-- A BYE that has the tag of the first dialog as another parameter. -/
def untagged_bye : Datagram where
  bytes := request_text (ascii "BYE") (ascii "z9hG4bK2") (ascii "<sip:b@h>;aaa=0000000000000000")
  fits := by decide +kernel

/-- The response at that place of those a run sends for a datagram, whose dialog's tag is not the only
one in its To header. -/
private def mistagged (run : Run) (datagram : Datagram) (place : Nat) : Option Bool := do
  let message ← accepted_message datagram ⟨2, 5060, 1⟩
  let run' ← (run.step (arrival datagram .obliging)).toOption
  let s ← (run'.sent.drop run.sent.length)[place]?
  let d ← s.dialog.bind run'.worker.dialogs.heap.cells
  some (decide (transaction_for run.worker message = none ∧
    (to_header s).map (params_named PARAM_NAME_TAG) ≠ some [some d.to_tag.bytes]))

private theorem of_mistagged {run : Run} {datagram : Datagram} {place : Nat}
    (h : mistagged run datagram place = some true) :
    ∃ message run' s dialog d, Opens run message (arrival datagram .obliging) ∧
      run.step (arrival datagram .obliging) = ok run' ∧ s ∈ run'.sent.drop run.sent.length ∧
      s.dialog = some dialog ∧ run'.worker.dialogs.heap.cells dialog = some d ∧ ¬ CarriesTagOnce message d s := by
  obtain ⟨message, hmessage, h⟩ := Option.bind_eq_some_iff.mp h
  obtain ⟨run', hstep, h⟩ := Option.bind_eq_some_iff.mp h
  obtain ⟨s, hs, h⟩ := Option.bind_eq_some_iff.mp h
  obtain ⟨d, hd, h⟩ := Option.bind_eq_some_iff.mp h
  obtain ⟨hnew, htags⟩ := of_decide_eq_true (Option.some.inj h)
  obtain ⟨dialog, hdialog, hd⟩ := Option.bind_eq_some_iff.mp hd
  exact ⟨message, run', s, dialog, d, ⟨accepted_iff.mpr hmessage, hnew, rfl⟩, eq_ok_of_toOption hstep,
    List.mem_of_getElem? hs, hdialog, hd, fun honce => htags honce.once⟩

private theorem mistagged_responses : mistagged Run.started tagged_invite 1 = some true ∧
    (program.follow Run.started [arrival first_invite .obliging]).map (mistagged · untagged_bye 0) =
      some (some true) := by
  decide +kernel

/-- The 180 to an INVITE with another tag has two tags, and the 200 to a BYE with the text of the tag
elsewhere has none. -/
theorem tag_doubled_and_left_out :
    (∃ message run' s dialog d, Opens Run.started message (arrival tagged_invite .obliging) ∧
      Run.started.step (arrival tagged_invite .obliging) = ok run' ∧ s ∈ run'.sent.drop Run.started.sent.length ∧
      s.dialog = some dialog ∧ run'.worker.dialogs.heap.cells dialog = some d ∧ ¬ CarriesTagOnce message d s) ∧
    ∃ run, program.Reachable run ∧ ∃ message run' s dialog d, Opens run message (arrival untagged_bye .obliging) ∧
      run.step (arrival untagged_bye .obliging) = ok run' ∧ s ∈ run'.sent.drop run.sent.length ∧
      s.dialog = some dialog ∧ run'.worker.dialogs.heap.cells dialog = some d ∧ ¬ CarriesTagOnce message d s := by
  obtain ⟨hdoubled, hleft_out⟩ := mistagged_responses
  obtain ⟨run, hrun, hleft_out⟩ := Option.map_eq_some_iff.mp hleft_out
  exact ⟨of_mistagged hdoubled, run, reachable_of_follow hrun, of_mistagged hleft_out⟩

end mock_uas.sip_server
