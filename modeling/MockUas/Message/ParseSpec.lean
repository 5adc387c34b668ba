import MockUas.Message.Parameter

open clib

namespace mock_uas.sip_message

/-- The header occurs and its value is not empty. -/
def Present (buffer header_name : Bytes) : Prop :=
  ∃ value length, header_value buffer header_name = some (value, length) ∧ length ≠ 0

/-- Where the extractor of a header's parameter starts its search for the closing CR. -/
def parameter_at (buffer header_name : Bytes) (skip : Nat) : Option Nat :=
  (header_value buffer header_name).bind fun value => parameter_start buffer value.1 skip

/-- The extractor's search starts inside the buffer. -/
def StartsInBuffer (buffer header_name : Bytes) (skip : Nat) : Prop :=
  ∀ position, parameter_at buffer header_name skip = some position → position < buffer.length

/-- The extractor finds a semicolon, and no CR right where it takes the value to start. -/
def FoundNonempty (buffer header_name : Bytes) (skip : Nat) : Prop :=
  ∃ position, parameter_at buffer header_name skip = some position ∧ buffer[position]? ≠ some CR

/-- A CR follows the place where the extractor takes the value to start, before any NUL. -/
def EndsInText (buffer header_name : Bytes) (skip : Nat) : Prop :=
  ∀ position, parameter_at buffer header_name skip = some position → (next_cr buffer position).isSome

/-- The reads of the stages of `parse_message` that follow the first line stay in the
buffer, each under the condition that the parser gets that far. -/
def ReadsVia (buffer : Bytes) : Prop :=
  Present buffer HEADER_NAME_VIA → StartsInBuffer buffer HEADER_NAME_VIA 7

def ReadsTo (buffer : Bytes) : Prop :=
  Present buffer HEADER_NAME_TO → StartsInBuffer buffer HEADER_NAME_TO 4 ∧ ReadsVia buffer

def ReadsFrom (buffer : Bytes) : Prop :=
  Present buffer HEADER_NAME_FROM → StartsInBuffer buffer HEADER_NAME_FROM 4 ∧
    (FoundNonempty buffer HEADER_NAME_FROM 4 → ReadsTo buffer)

/-- The mandatory parts of a request after its first line, as far as the parser asks. -/
structure Complete (buffer : Bytes) : Prop where
  from_ : Present buffer HEADER_NAME_FROM
  from_tag : FoundNonempty buffer HEADER_NAME_FROM 4
  to_ : Present buffer HEADER_NAME_TO
  via : Present buffer HEADER_NAME_VIA
  branch : FoundNonempty buffer HEADER_NAME_VIA 7
  cseq : Present buffer HEADER_NAME_CSEQ
  max_forwards : Present buffer HEADER_NAME_MAX_FORWARDS
  content_length : Present buffer HEADER_NAME_CONTENT_LENGTH

/-- A slice recorded for a header is the one the text determines. -/
def HeaderSlice (buffer header_name : Bytes) (slice : Option Nat) (length : Nat) : Prop :=
  ∃ value, slice = some value ∧ header_value buffer header_name = some (value, length) ∧ length ≠ 0

/-- The length the extractor records for a parameter that starts at `position`. -/
def parameter_length (buffer : Bytes) (header_end position : Nat) : Nat :=
  sizeSub ((next_cr buffer position).getD header_end) position

/-- A slice recorded for a parameter is the one the extractor's rule determines. -/
def ParameterSlice (buffer header_name : Bytes) (skip : Nat) (slice : Option Nat) (length : Nat) : Prop :=
  ∃ value value_length, header_value buffer header_name = some (value, value_length) ∧
    slice = parameter_start buffer value skip ∧
    ∀ position, slice = some position →
      position < buffer.length ∧ length = parameter_length buffer (value + value_length) position

/-- A request message with everything that the stages after the first line record left out. -/
def withoutHeaders (message : sip_message_t) : sip_message_t :=
  { message with
    from_ := none
    from_length := 0
    from_tag := none
    from_tag_length := 0
    to_ := none
    to_length := 0
    to_tag := none
    to_tag_length := 0
    via := none
    via_length := 0
    branch := none
    branch_length := 0
    cseq := none
    cseq_length := 0 }

/-- What an accepted request records, in terms of its text. -/
structure HeadersRecorded (buffer : Bytes) (after : sip_message_t) : Prop where
  from_ : HeaderSlice buffer HEADER_NAME_FROM after.from_ after.from_length
  from_tag : ParameterSlice buffer HEADER_NAME_FROM 4 after.from_tag after.from_tag_length
  from_tag_found : after.from_tag ≠ none ∧ after.from_tag_length ≠ 0
  to_ : HeaderSlice buffer HEADER_NAME_TO after.to_ after.to_length
  to_tag : ParameterSlice buffer HEADER_NAME_TO 4 after.to_tag after.to_tag_length
  via : HeaderSlice buffer HEADER_NAME_VIA after.via after.via_length
  branch : ParameterSlice buffer HEADER_NAME_VIA 7 after.branch after.branch_length
  branch_found : after.branch ≠ none ∧ after.branch_length ≠ 0
  cseq : HeaderSlice buffer HEADER_NAME_CSEQ after.cseq after.cseq_length

theorem missing_eq_true_iff {buffer header_name : Bytes} :
    missing (header_value buffer header_name) = true ↔ ¬ Present buffer header_name := by
  cases hvalue : header_value buffer header_name with
  | none => simp [missing, Present, hvalue]
  | some slice =>
    obtain ⟨value, length⟩ := slice
    simp [missing, Present, hvalue]

/-- A recorded parameter has length zero exactly when a CR stands where it would start. -/
theorem parameter_length_eq_zero_iff {buffer header_name : Bytes} {value length position : Nat}
    (hbuffer : Buffered buffer) (hvalue : header_value buffer header_name = some (value, length))
    (hin : position < buffer.length) :
    parameter_length buffer (value + length) position = 0 ↔ buffer[position]? = some CR := by
  have hterm := hbuffer.terminated position hin
  have hbound := hbuffer.bound
  cases hnext : next_cr buffer position with
  | none =>
    have hbehind : value + length < position := by
      by_contra hle
      obtain ⟨k, hk⟩ := next_cr_of_le hvalue (i := position) (by omega)
      rw [hnext] at hk
      cases hk
    have hlength : parameter_length buffer (value + length) position =
        sizeMax - (position - (value + length)) := by
      rw [parameter_length, hnext, Option.getD_none]
      exact sizeSub_wrap hbehind (by omega)
    constructor
    · intro hzero
      omega
    · intro hcr
      rw [next_cr, Option.map_eq_none_iff, cstr, List.drop_eq_getElem_cons hin] at hnext
      rw [List.getElem?_eq_getElem hin, Option.some.injEq] at hcr
      have hne : (CR != NUL) = true := by decide
      simp [hcr, hne, List.findIdx?_cons] at hnext
  | some k =>
    obtain ⟨hle, hlt⟩ := next_cr_bounds hnext
    have hend := length_cstr_lt hterm
    have hlength : parameter_length buffer (value + length) position = k - position := by
      rw [parameter_length, hnext, Option.getD_some]
      exact sizeSub_eq hle (by omega)
    obtain ⟨j, hj, hk⟩ := Option.map_eq_some_iff.mp hnext
    obtain ⟨hjlt, hjcr, hbefore⟩ := List.findIdx?_eq_some_iff_getElem.mp hj
    rw [hlength]
    constructor
    · intro hzero
      have hjzero : j = 0 := by omega
      subst hjzero
      have hget := @getElem?_cstr buffer position _ hjlt
      rw [Nat.add_zero] at hget
      rw [hget, List.getElem?_eq_getElem hjlt]
      simpa using hjcr
    · intro hcr
      by_contra hne
      have hfirst := hbefore 0 (by omega)
      have hget := @getElem?_cstr buffer position 0 (by omega)
      rw [Nat.add_zero, hcr, List.getElem?_eq_getElem (by omega), Option.some.injEq] at hget
      simp [← hget] at hfirst

end mock_uas.sip_message
