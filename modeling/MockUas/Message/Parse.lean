import MockUas.Message.Header

open clib

namespace mock_uas.sip_message

def SLASH : UInt8 := 47
def SPACE : UInt8 := 32
def SEMICOLON : UInt8 := 59

def is_space (b : UInt8) : Bool := b == SPACE
def is_blank (b : UInt8) : Bool := b == SPACE || b == 9

/-- The chain of comparisons in `get_message_method`. -/
def method_lookup (buffer : Bytes) (method : Option Nat) (method_length : Nat) :
    List (Bytes × sip_method_t) → Result sip_method_t
  | [] => ok .UNKNOWN
  | (name, method_type) :: names => do
    if method_length = name.length then
      let start ← deref method
      if ← strncasecmpEq buffer start name then ok method_type
      else method_lookup buffer method method_length names
    else
      method_lookup buffer method method_length names

def get_message_method (message : sip_message_t) : Result (sip_method_t × sip_message_t) := do
  if message.is_request = false then ok (.UNKNOWN, message)
  else if message.method_type ≠ .UNKNOWN then ok (message.method_type, message)
  else
    let method_type ← method_lookup message.buffer message.method message.method_length METHOD_NAMES
    ok (method_type, { message with method_type := method_type })

/-- The status-line half of `parse_first_line`, for a buffer that starts with `SIP`. -/
def parse_status_line (message : sip_message_t) (line_end : Nat) :
    Result (sip_msg_error_t × sip_message_t) := do
  match ← strchr message.buffer 0 SLASH with
  | none => ok (.ERROR_MALFORMED_MESSAGE, message)
  | some dash_pos =>
    if dash_pos + 2 ≥ line_end then ok (.ERROR_MALFORMED_MESSAGE, message)
    else
      let version_major ← atoi message.buffer (dash_pos + 1)
      let version_minor ← atoi message.buffer (dash_pos + 3)
      let message := { message with version_major := version_major, version_minor := version_minor }
      if version_major ≠ 2 ∨ version_minor ≠ 0 then ok (.ERROR_UNSUPPORTED_SIP_VERSION, message)
      else
        let status_code_start ← skipUntil is_space line_end message.buffer (dash_pos + 4)
        if status_code_start ≥ line_end then ok (.ERROR_MALFORMED_MESSAGE, message)
        else
          let status_code ← atoi message.buffer status_code_start
          let message := { message with status_code := status_code }
          let reason_start ← skipUntil (fun b => !is_space b) line_end message.buffer status_code_start
          if reason_start ≥ line_end then ok (.ERROR_MALFORMED_MESSAGE, message)
          else
            ok (.ERROR_NONE, { message with
              reason := some (reason_start + 1)
              reason_length := sizeSub line_end (reason_start + 1) })

/-- The request-line half of `parse_first_line`. -/
def parse_request_line (message : sip_message_t) (line_end : Nat) :
    Result (sip_msg_error_t × sip_message_t) := do
  match ← strchr message.buffer 0 SPACE with
  | none => ok (.ERROR_MALFORMED_MESSAGE, message)
  | some space_pos =>
    if space_pos ≥ line_end then ok (.ERROR_MALFORMED_MESSAGE, message)
    else
      let message := { message with method := some 0, method_length := sizeSub space_pos 0 }
      let (method_type, message) ← get_message_method message
      if method_type = .UNKNOWN then ok (.ERROR_UNKNOWN_METHOD, message)
      else
        let sip_pos ← skipUntil is_space line_end message.buffer (space_pos + 1)
        if sip_pos ≥ line_end then ok (.ERROR_MALFORMED_MESSAGE, message)
        else
          match ← strchr message.buffer sip_pos SPACE with
          | none => ok (.ERROR_MALFORMED_MESSAGE, message)
          | some uri_end =>
            if uri_end ≥ line_end then ok (.ERROR_MALFORMED_MESSAGE, message)
            else
              let message := { message with uri := some sip_pos, uri_length := sizeSub uri_end sip_pos }
              match ← strchr message.buffer uri_end SLASH with
              | none => ok (.ERROR_MALFORMED_MESSAGE, message)
              | some dash_pos =>
                if dash_pos + 2 ≥ line_end then ok (.ERROR_MALFORMED_MESSAGE, message)
                else
                  let version_major ← atoi message.buffer (dash_pos + 1)
                  let version_minor ← atoi message.buffer (dash_pos + 3)
                  let message := { message with version_major := version_major, version_minor := version_minor }
                  if version_major ≠ 2 ∨ version_minor ≠ 0 then ok (.ERROR_UNSUPPORTED_SIP_VERSION, message)
                  else ok (.ERROR_NONE, message)

def parse_first_line (message : sip_message_t) : Result (sip_msg_error_t × sip_message_t) := do
  match ← strstr message.buffer 0 CRLF with
  | none => ok (.ERROR_MALFORMED_MESSAGE, message)
  | some line_end =>
    if ← strncmpEq message.buffer 0 (ascii "SIP") then
      parse_status_line { message with is_request := false } line_end
    else
      parse_request_line { message with is_request := true } line_end

/-- The body shared by `get_from_tag`, `get_to_tag` and `get_branch_param`: the first
semicolon at or after the value, blanks, then `skip` bytes taken for the name and `=`. -/
def get_parameter (buffer : Bytes) (value : Option Nat) (value_length skip : Nat) :
    Result (Option (Nat × Nat)) := do
  match value with
  | none => ok none
  | some start =>
    if value_length = 0 then ok none
    else
      match ← strchr buffer start SEMICOLON with
      | none => ok none
      | some semicolon =>
        let name_start ← skipWhile is_blank buffer (semicolon + 1)
        let tag_start := name_start + skip
        let tag_end := (← strchr buffer tag_start CR).getD (start + value_length)
        ok (some (tag_start, sizeSub tag_end tag_start))

def get_from_tag (message : sip_message_t) : Result (Option (Nat × Nat) × sip_message_t) := do
  match ← get_parameter message.buffer message.from_ message.from_length 4 with
  | none => ok (none, message)
  | some (tag, length) =>
    ok (some (tag, length), { message with from_tag := some tag, from_tag_length := length })

def get_to_tag (message : sip_message_t) : Result (Option (Nat × Nat) × sip_message_t) := do
  match ← get_parameter message.buffer message.to_ message.to_length 4 with
  | none => ok (none, message)
  | some (tag, length) =>
    ok (some (tag, length), { message with to_tag := some tag, to_tag_length := length })

def get_branch_param (message : sip_message_t) : Result (Option (Nat × Nat) × sip_message_t) := do
  match ← get_parameter message.buffer message.via message.via_length 7 with
  | none => ok (none, message)
  | some (branch, length) =>
    ok (some (branch, length), { message with branch := some branch, branch_length := length })

/-- `header == NULL || length == 0`. -/
def missing : Option (Nat × Nat) → Bool
  | none => true
  | some (_, length) => length == 0

/-- The checks of `parse_message` from the CSeq header on. -/
def parse_last_headers (message : sip_message_t) : Result (sip_msg_error_t × sip_message_t) := do
  let (header, message) ← get_message_cseq message
  if missing header then ok (.ERROR_MISSING_MANDATORY_HEADER, message)
  else
    let no_max_forwards ← if message.is_request then do
        let header ← get_header_value message.buffer HEADER_NAME_MAX_FORWARDS
        ok (missing header)
      else ok false
    if no_max_forwards then ok (.ERROR_MISSING_MANDATORY_HEADER, message)
    else
      let header ← get_header_value message.buffer HEADER_NAME_CONTENT_LENGTH
      if missing header then ok (.ERROR_MISSING_MANDATORY_HEADER, message)
      else ok (.ERROR_NONE, message)

/-- The checks of `parse_message` from the Via header on. -/
def parse_via (message : sip_message_t) : Result (sip_msg_error_t × sip_message_t) := do
  let (header, message) ← get_message_via message
  if missing header then ok (.ERROR_MISSING_MANDATORY_HEADER, message)
  else
    let (header, message) ← get_branch_param message
    if missing header then ok (.ERROR_MISSING_MANDATORY_PARAMETER, message)
    else parse_last_headers message

/-- The checks of `parse_message` from the To header on. -/
def parse_to (message : sip_message_t) : Result (sip_msg_error_t × sip_message_t) := do
  let (header, message) ← get_message_to message
  if missing header then ok (.ERROR_MISSING_MANDATORY_HEADER, message)
  else
    let (_, message) ← get_to_tag message
    parse_via message

/-- The checks of `parse_message` from the From header on. -/
def parse_from (message : sip_message_t) : Result (sip_msg_error_t × sip_message_t) := do
  let (header, message) ← get_message_from message
  if missing header then ok (.ERROR_MISSING_MANDATORY_HEADER, message)
  else
    let (header, message) ← get_from_tag message
    if missing header then ok (.ERROR_MISSING_MANDATORY_PARAMETER, message)
    else parse_to message

def parse_message (message : sip_message_t) : Result (sip_msg_error_t × sip_message_t) := do
  let (err, message) ← parse_first_line message
  if err ≠ .ERROR_NONE then ok (err, message)
  else
    let (method, message) ← get_message_method message
    if method = .UNKNOWN then ok (.ERROR_UNKNOWN_METHOD, message)
    else parse_from message

end mock_uas.sip_message
