import MockUas.Clib.Lines

open clib

namespace mock_uas.sip_message

def BUFFER_SIZE : Nat := 1024
def SIP_PROTOCOL_AND_VERSION : Bytes := ascii "SIP/2.0"
def SIP_CALL_ID_MAX_LENGTH : Nat := 256
def SIP_TAG_MAX_LENGTH : Nat := 64
def SIP_BUILD_TAG_LENGTH : Nat := 16
def SIP_BRANCH_MAX_LENGTH : Nat := 64

def HEADER_NAME_CALL_ID : Bytes := ascii "Call-ID"
def HEADER_NAME_FROM : Bytes := ascii "From"
def HEADER_NAME_TO : Bytes := ascii "To"
def HEADER_NAME_VIA : Bytes := ascii "Via"
def HEADER_NAME_CSEQ : Bytes := ascii "CSeq"
def HEADER_NAME_MAX_FORWARDS : Bytes := ascii "Max-Forwards"
def HEADER_NAME_CONTENT_LENGTH : Bytes := ascii "Content-Length"

def PARAM_NAME_TAG : Bytes := ascii "tag"

inductive sip_msg_error_t where
  | ERROR_NONE
  | ERROR_INVALID_PARAMETERS
  | ERROR_UNSUPPORTED_SIP_VERSION
  | ERROR_MALFORMED_MESSAGE
  | ERROR_UNKNOWN_METHOD
  | ERROR_MISSING_MANDATORY_HEADER
  | ERROR_MISSING_MANDATORY_PARAMETER
  deriving DecidableEq, Repr

inductive sip_method_t where
  | UNKNOWN
  | INVITE
  | ACK
  | BYE
  | CANCEL
  | OPTIONS
  | REGISTER
  | PRACK
  | UPDATE
  | SUBSCRIBE
  | NOTIFY
  | PUBLISH
  | INFO
  | REFER
  | MESSAGE
  deriving DecidableEq, Repr

/-- The names of the known methods, in the order `get_message_method` compares them. -/
def METHOD_NAMES : List (Bytes × sip_method_t) :=
  [(ascii "INVITE", .INVITE), (ascii "ACK", .ACK), (ascii "BYE", .BYE), (ascii "CANCEL", .CANCEL),
    (ascii "OPTIONS", .OPTIONS), (ascii "REGISTER", .REGISTER), (ascii "PRACK", .PRACK),
    (ascii "UPDATE", .UPDATE), (ascii "SUBSCRIBE", .SUBSCRIBE), (ascii "NOTIFY", .NOTIFY),
    (ascii "PUBLISH", .PUBLISH), (ascii "INFO", .INFO), (ascii "REFER", .REFER),
    (ascii "MESSAGE", .MESSAGE)]

/-- `struct sockaddr_in`, as far as `sockaddr_in_equal` looks at it. -/
structure sockaddr_in where
  sin_family : UInt16
  sin_port : UInt16
  s_addr : UInt32
  deriving DecidableEq, Repr

/-- `sizeof(struct sockaddr_in)`, which `recvfrom` stores for an IPv4 socket. -/
def SOCKADDR_IN_SIZE : Nat := 16

/-- A received message. The pointers `call_id`, `from_`, ... point into `buffer`, so
they are offsets in it, and `none` is `NULL`. -/
structure sip_message_t where
  buffer : Bytes
  buffer_length : Nat
  response : Bytes
  response_length : Nat
  client_addr : sockaddr_in
  client_addr_len : Nat
  call_id : Option Nat
  call_id_length : Nat
  from_ : Option Nat
  from_length : Nat
  from_tag : Option Nat
  from_tag_length : Nat
  to_ : Option Nat
  to_length : Nat
  to_tag : Option Nat
  to_tag_length : Nat
  via : Option Nat
  via_length : Nat
  branch : Option Nat
  branch_length : Nat
  cseq : Option Nat
  cseq_length : Nat
  is_request : Bool
  status_code : Int
  version_major : Int
  version_minor : Int
  reason : Option Nat
  reason_length : Nat
  method_type : sip_method_t
  method : Option Nat
  method_length : Nat
  uri : Option Nat
  uri_length : Nat
  deriving DecidableEq, Repr

/-- What one `recvfrom` can return: it is asked for at most `sizeof(buffer) - 1` bytes. -/
structure Datagram where
  bytes : Bytes
  fits : bytes.length < BUFFER_SIZE

/-- The message `handle_new_message` builds: zeroed by `memset`, then filled by `recvfrom`. -/
def received (datagram : Datagram) (client_addr : sockaddr_in) : sip_message_t where
  buffer := datagram.bytes ++ List.replicate (BUFFER_SIZE - datagram.bytes.length) NUL
  buffer_length := datagram.bytes.length
  response := List.replicate BUFFER_SIZE NUL
  response_length := 0
  client_addr := client_addr
  client_addr_len := SOCKADDR_IN_SIZE
  call_id := none
  call_id_length := 0
  from_ := none
  from_length := 0
  from_tag := none
  from_tag_length := 0
  to_ := none
  to_length := 0
  to_tag := none
  to_tag_length := 0
  via := none
  via_length := 0
  branch := none
  branch_length := 0
  cseq := none
  cseq_length := 0
  is_request := false
  status_code := 0
  version_major := 0
  version_minor := 0
  reason := none
  reason_length := 0
  method_type := .UNKNOWN
  method := none
  method_length := 0
  uri := none
  uri_length := 0

/-- The array that holds a datagram keeps the datagram in front and zeros behind it. -/
def buffered (datagram : Datagram) : Bytes :=
  datagram.bytes ++ List.replicate (BUFFER_SIZE - datagram.bytes.length) NUL

@[simp] theorem buffer_received (datagram : Datagram) (client_addr : sockaddr_in) :
    (received datagram client_addr).buffer = buffered datagram := rfl

@[simp] theorem length_buffered (datagram : Datagram) : (buffered datagram).length = BUFFER_SIZE := by
  have hfits := datagram.fits
  simp [buffered]
  omega

theorem getElem?_buffered_of_le (datagram : Datagram) {i : Nat} (hle : datagram.bytes.length ≤ i)
    (hi : i < BUFFER_SIZE) : (buffered datagram)[i]? = some NUL := by
  rw [buffered, List.getElem?_append_right hle, List.getElem?_replicate, if_pos (by omega)]

/-- A datagram leaves at least one NUL at the end of its buffer. -/
theorem buffered_terminated (datagram : Datagram) {i : Nat} (hi : i < BUFFER_SIZE) :
    Terminated (buffered datagram) i := by
  have hfits := datagram.fits
  have hlast := getElem?_buffered_of_le datagram (i := BUFFER_SIZE - 1) (by omega) (by decide)
  have hoffset : i + (BUFFER_SIZE - 1 - i) = BUFFER_SIZE - 1 := by omega
  rw [← hoffset, ← List.getElem?_drop] at hlast
  exact List.mem_of_getElem? hlast

end mock_uas.sip_message
