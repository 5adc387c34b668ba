import MockUas.Message.Parse

open clib

namespace mock_uas.sip_message

/-- A message with everything the first line decides left out. -/
def withoutFirstLine (message : sip_message_t) : sip_message_t :=
  { message with
    is_request := false
    status_code := 0
    version_major := 0
    version_minor := 0
    reason := none
    reason_length := 0
    method_type := .UNKNOWN
    method := none
    method_length := 0
    uri := none
    uri_length := 0 }

private theorem method_lookup_succeeds {buffer : Bytes} {method : Option Nat} (method_length : Nat)
    {names : List (Bytes × sip_method_t)} {start : Nat} (hmethod : method = some start)
    (hterm : Terminated buffer start) (hnames : ∀ entry ∈ names, NUL ∉ entry.1.map tolower) :
    ∃ method_type, method_lookup buffer method method_length names = ok method_type := by
  induction names with
  | nil => exact ⟨_, rfl⟩
  | cons entry names ih =>
    obtain ⟨name, method_type⟩ := entry
    have hrest := ih fun entry hmem => hnames entry (List.mem_cons_of_mem _ hmem)
    have hcompare := strncasecmpEq_eq hterm (hnames (name, method_type) List.mem_cons_self)
    subst hmethod
    by_cases hlength : method_length = name.length
    · simp only [method_lookup, if_pos hlength, deref_some, bind_ok, hcompare]
      cases startsWithCase name (cstr buffer start) with
      | false => simpa using hrest
      | true => exact ⟨_, rfl⟩
    · simpa only [method_lookup, if_neg hlength] using hrest

theorem method_names_plain : ∀ entry ∈ METHOD_NAMES, NUL ∉ entry.1.map tolower := by decide

/-- Looking up a request's method reads inside the text and only records the answer. -/
theorem get_message_method_spec (message : sip_message_t) {start : Nat}
    (hrequest : message.is_request = true) (hmethod : message.method = some start)
    (hterm : Terminated message.buffer start) :
    ∃ method_type, get_message_method message =
      ok (method_type, { message with method_type := method_type }) := by
  unfold get_message_method
  rw [if_neg (by simp [hrequest])]
  by_cases hknown : message.method_type = .UNKNOWN
  · obtain ⟨method_type, hlookup⟩ := method_lookup_succeeds message.method_length
      hmethod hterm method_names_plain
    exact ⟨method_type, by simp [hknown, hlookup]⟩
  · rw [if_pos hknown]
    exact ⟨message.method_type, rfl⟩

/-- What a first line read without fault leaves behind: the message is changed in its
first-line fields only, and the slices of an accepted request line are in order. -/
structure FirstLineRead (message : sip_message_t) (err : sip_msg_error_t) (after : sip_message_t) : Prop where
  frame : withoutFirstLine after = withoutFirstLine message
  response : after.is_request = false → after.method_type = message.method_type
  request : err = .ERROR_NONE → after.is_request = true →
    after.method_type ≠ .UNKNOWN ∧ after.method = some 0 ∧
    ∃ uri, after.uri = some uri ∧ after.method_length < uri ∧
      uri + after.uri_length < (cstr message.buffer 0).length

theorem terminated_of_le {buffer : Bytes} {i : Nat} (hterm : Terminated buffer 0)
    (hle : i ≤ (cstr buffer 0).length) : Terminated buffer i := by
  have h := hterm.add hle
  rwa [Nat.zero_add] at h

theorem length_cstr_of_le {buffer : Bytes} {i : Nat} (hle : i ≤ (cstr buffer 0).length) :
    (cstr buffer i).length = (cstr buffer 0).length - i := by
  have h := @cstr_add buffer 0 i hle
  rw [Nat.zero_add] at h
  rw [h, List.length_drop]

private theorem parse_status_line_spec (message : sip_message_t) (line_end : Nat)
    (hterm : Terminated message.buffer 0) (hend : line_end < (cstr message.buffer 0).length)
    (hrequest : message.is_request = false) :
    ∃ err after, parse_status_line message line_end = ok (err, after) ∧
      FirstLineRead message err after := by
  unfold parse_status_line
  rw [strchr_eq hterm (by decide)]
  cases hdash : (cstr message.buffer 0).findIdx? (· == SLASH) with
  | none => exact ⟨_, _, rfl, rfl, fun _ => rfl, nofun⟩
  | some dash_pos =>
    simp only [Option.map_some, bind_ok, Nat.zero_add]
    by_cases hshort : dash_pos + 2 ≥ line_end
    · rw [if_pos hshort]
      exact ⟨_, _, rfl, rfl, fun _ => rfl, nofun⟩
    rw [if_neg hshort]
    obtain ⟨major, hmajor⟩ := atoi_succeeds (terminated_of_le hterm (i := dash_pos + 1) (by omega))
    obtain ⟨minor, hminor⟩ := atoi_succeeds (terminated_of_le hterm (i := dash_pos + 3) (by omega))
    simp only [hmajor, hminor, bind_ok]
    by_cases hversion : major ≠ 2 ∨ minor ≠ 0
    · rw [if_pos hversion]
      exact ⟨_, _, rfl, rfl, fun _ => rfl, nofun⟩
    rw [if_neg hversion]
    have hcode := terminated_of_le hterm (i := dash_pos + 4) (by omega)
    have hlength := @length_cstr_of_le message.buffer (dash_pos + 4) (by omega)
    rw [skipUntil_eq hcode (by omega)]
    simp only [bind_ok]
    generalize dash_pos + 4 + _ = status_code_start
    by_cases hempty : status_code_start ≥ line_end
    · rw [if_pos hempty]
      exact ⟨_, _, rfl, rfl, fun _ => rfl, nofun⟩
    rw [if_neg hempty]
    have hstatus := terminated_of_le hterm (i := status_code_start) (by omega)
    have hlength' := @length_cstr_of_le message.buffer status_code_start (by omega)
    obtain ⟨code, hcode⟩ := atoi_succeeds hstatus
    simp only [hcode, bind_ok]
    rw [skipUntil_eq hstatus (by omega)]
    simp only [bind_ok]
    generalize status_code_start + _ = reason_start
    by_cases hreason : reason_start ≥ line_end
    · rw [if_pos hreason]
      exact ⟨_, _, rfl, rfl, fun _ => rfl, nofun⟩
    · rw [if_neg hreason]
      exact ⟨_, _, rfl, rfl, fun _ => rfl, fun _ h => by simp [hrequest] at h⟩

private theorem parse_request_line_spec (message : sip_message_t) (line_end : Nat)
    (hterm : Terminated message.buffer 0) (hend : line_end < (cstr message.buffer 0).length)
    (hbound : message.buffer.length < sizeMax) (hrequest : message.is_request = true) :
    ∃ err after, parse_request_line message line_end = ok (err, after) ∧
      FirstLineRead message err after := by
  have hin := length_cstr_lt hterm
  unfold parse_request_line
  rw [strchr_eq hterm (by decide)]
  cases hspace : (cstr message.buffer 0).findIdx? (· == SPACE) with
  | none => exact ⟨_, _, rfl, rfl, fun _ => rfl, nofun⟩
  | some space_pos =>
    simp only [Option.map_some, bind_ok, Nat.zero_add]
    by_cases hshort : space_pos ≥ line_end
    · rw [if_pos hshort]
      exact ⟨_, _, rfl, rfl, fun _ => rfl, nofun⟩
    rw [if_neg hshort]
    obtain ⟨method_type, hmethod⟩ := get_message_method_spec
      { message with method := some 0, method_length := sizeSub space_pos 0 } hrequest rfl hterm
    rw [hmethod]
    simp only [bind_ok]
    by_cases hunknown : method_type = .UNKNOWN
    · rw [if_pos hunknown]
      exact ⟨_, _, rfl, rfl, fun h => by simp [hrequest] at h, nofun⟩
    rw [if_neg hunknown]
    have hlength := @length_cstr_of_le message.buffer (space_pos + 1) (by omega)
    rw [skipUntil_eq (terminated_of_le hterm (i := space_pos + 1) (by omega)) (by omega)]
    simp only [bind_ok]
    generalize hsip : space_pos + 1 + _ = sip_pos
    by_cases hempty : sip_pos ≥ line_end
    · rw [if_pos hempty]
      exact ⟨_, _, rfl, rfl, fun h => by simp [hrequest] at h, nofun⟩
    rw [if_neg hempty, strchr_eq (terminated_of_le hterm (i := sip_pos) (by omega)) (by decide)]
    cases huri : (cstr message.buffer sip_pos).findIdx? (· == SPACE) with
    | none => exact ⟨_, _, rfl, rfl, fun h => by simp [hrequest] at h, nofun⟩
    | some offset =>
      simp only [Option.map_some, bind_ok]
      by_cases hlong : sip_pos + offset ≥ line_end
      · rw [if_pos hlong]
        exact ⟨_, _, rfl, rfl, fun h => by simp [hrequest] at h, nofun⟩
      rw [if_neg hlong, strchr_eq (terminated_of_le hterm (i := sip_pos + offset) (by omega)) (by decide)]
      cases hdash : (cstr message.buffer (sip_pos + offset)).findIdx? (· == SLASH) with
      | none => exact ⟨_, _, rfl, rfl, fun h => by simp [hrequest] at h, nofun⟩
      | some dash =>
        simp only [Option.map_some, bind_ok]
        by_cases hversionless : sip_pos + offset + dash + 2 ≥ line_end
        · rw [if_pos hversionless]
          exact ⟨_, _, rfl, rfl, fun h => by simp [hrequest] at h, nofun⟩
        rw [if_neg hversionless]
        obtain ⟨major, hmajor⟩ := atoi_succeeds
          (terminated_of_le hterm (i := sip_pos + offset + dash + 1) (by omega))
        obtain ⟨minor, hminor⟩ := atoi_succeeds
          (terminated_of_le hterm (i := sip_pos + offset + dash + 3) (by omega))
        simp only [hmajor, hminor, bind_ok]
        by_cases hversion : major ≠ 2 ∨ minor ≠ 0
        · rw [if_pos hversion]
          exact ⟨_, _, rfl, rfl, fun h => by simp [hrequest] at h, nofun⟩
        · rw [if_neg hversion]
          refine ⟨_, _, rfl, rfl, fun h => by simp [hrequest] at h, fun _ _ => ⟨hunknown, rfl, sip_pos, rfl, ?_, ?_⟩⟩
          · show sizeSub space_pos 0 < sip_pos
            rw [sizeSub_eq (by omega) (by omega)]
            omega
          · show sip_pos + sizeSub (sip_pos + offset) sip_pos < _
            rw [sizeSub_eq (by omega) (by omega)]
            omega

/-- The first line is read inside the text, whatever the datagram holds. -/
theorem parse_first_line_spec (message : sip_message_t) (hterm : Terminated message.buffer 0)
    (hbound : message.buffer.length < sizeMax) :
    ∃ err after, parse_first_line message = ok (err, after) ∧ FirstLineRead message err after := by
  unfold parse_first_line
  rw [strstr_eq hterm (by decide : NUL ∉ CRLF) (by decide)]
  cases hline : infixIdx CRLF (cstr message.buffer 0) with
  | none => exact ⟨_, _, rfl, rfl, fun _ => rfl, nofun⟩
  | some line_end =>
    have hle := infixIdx_le hline
    simp only [CRLF, List.length_cons, List.length_nil] at hle
    simp only [Option.map_some, bind_ok, Nat.zero_add, strncmpEq_eq hterm (by decide : NUL ∉ ascii "SIP")]
    cases (ascii "SIP").isPrefixOf (cstr message.buffer 0) with
    | true =>
      obtain ⟨err, after, hparse, hread⟩ := parse_status_line_spec
        { message with is_request := false } line_end hterm (by simp; omega) rfl
      exact ⟨err, after, hparse, hread.frame, hread.response, hread.request⟩
    | false =>
      obtain ⟨err, after, hparse, hread⟩ := parse_request_line_spec
        { message with is_request := true } line_end hterm (by simp; omega) hbound rfl
      exact ⟨err, after, hparse, hread.frame, hread.response, hread.request⟩

end mock_uas.sip_message
