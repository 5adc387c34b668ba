import MockUas.Message.FirstLine

open clib

namespace mock_uas.sip_message

/-- The value `get_header_value` finds, as a function of the text. -/
def header_value (buffer header_name : Bytes) : Option (Nat × Nat) :=
  headerIn header_name 0 (crlfLines (cstr buffer 0))

/-- Where a parameter's value starts by the code's rule: the first semicolon at or after
the header value, then blanks, then `skip` more bytes. -/
def parameter_start (buffer : Bytes) (start skip : Nat) : Option Nat :=
  ((cstr buffer start).findIdx? (· == SEMICOLON)).map fun k =>
    start + k + 1 + ((cstr buffer (start + k + 1)).takeWhile is_blank).length + skip

/-- The first CR at or after a position, in the C string that starts there. -/
def next_cr (buffer : Bytes) (i : Nat) : Option Nat := ((cstr buffer i).findIdx? (· == CR)).map (i + ·)

theorem foundIn_of_header_value {buffer header_name : Bytes} {value length : Nat}
    (h : header_value buffer header_name = some (value, length)) :
    ∃ before line behind, FoundIn (cstr buffer 0) header_name value length before line behind :=
  foundIn_of_headerIn h

/-- A found value lies in the text, behind its name, and ends at its line's CR. -/
theorem header_value_bounds {buffer header_name : Bytes} {value length : Nat}
    (h : header_value buffer header_name = some (value, length)) :
    header_name.length ≤ value ∧ value + length + 2 ≤ (cstr buffer 0).length ∧
      (cstr buffer 0)[value + length]? = some CR := by
  obtain ⟨before, line, behind, hfound⟩ := foundIn_of_header_value h
  have hname := hfound.name
  have hlengths := hfound.lengths
  obtain ⟨hdrop, hlength⟩ := hfound.drop
  refine ⟨by omega, by omega, ?_⟩
  rw [← List.getElem?_drop, hdrop, List.getElem?_append_right (by omega), hlength, Nat.sub_self]
  rfl

theorem plain_header_names :
    PlainName HEADER_NAME_CALL_ID ∧ PlainName HEADER_NAME_FROM ∧ PlainName HEADER_NAME_TO ∧
    PlainName HEADER_NAME_VIA ∧ PlainName HEADER_NAME_CSEQ ∧ PlainName HEADER_NAME_MAX_FORWARDS ∧
    PlainName HEADER_NAME_CONTENT_LENGTH :=
  ⟨⟨by decide, by decide⟩, ⟨by decide, by decide⟩, ⟨by decide, by decide⟩, ⟨by decide, by decide⟩,
    ⟨by decide, by decide⟩, ⟨by decide, by decide⟩, ⟨by decide, by decide⟩⟩

/-- A buffer as `recvfrom` leaves it: its last byte is NUL, so every scan that starts
inside it also ends inside it. -/
structure Buffered (buffer : Bytes) : Prop where
  terminated : ∀ i, i < buffer.length → Terminated buffer i
  nonempty : 0 < buffer.length
  bound : buffer.length < sizeMax

theorem Buffered.get_header_value {buffer header_name : Bytes} (h : Buffered buffer)
    (hname : PlainName header_name) :
    get_header_value buffer header_name = ok (header_value buffer header_name) :=
  get_header_value_eq hname h.bound (h.terminated 0 h.nonempty)

theorem strchr_eq_next_cr {buffer : Bytes} {i : Nat} (h : Terminated buffer i) :
    strchr buffer i CR = ok (next_cr buffer i) :=
  strchr_eq h (by decide)

theorem strchr_outside {buffer : Bytes} {i : Nat} (c : UInt8) (h : buffer.length ≤ i) :
    strchr buffer i c = error .outOfBounds := by
  rw [strchr, List.drop_eq_nil_of_le h]
  rfl

theorem next_cr_bounds {buffer : Bytes} {i k : Nat} (h : next_cr buffer i = some k) :
    i ≤ k ∧ k < i + (cstr buffer i).length := by
  obtain ⟨j, hj, rfl⟩ := Option.map_eq_some_iff.mp h
  have hlt := (List.findIdx?_eq_some_iff_findIdx_eq.mp hj).1
  omega

private theorem findIdx?_le_of_getElem? {s : Bytes} {c : UInt8} {k : Nat} (h : s[k]? = some c) :
    ∃ j, s.findIdx? (· == c) = some j ∧ j ≤ k := by
  cases hfind : s.findIdx? (· == c) with
  | none =>
    have hall := List.findIdx?_eq_none_iff.mp hfind c (List.mem_of_getElem? h)
    simp at hall
  | some j =>
    refine ⟨j, rfl, ?_⟩
    by_contra hlt
    obtain ⟨hj, -, hbefore⟩ := List.findIdx?_eq_some_iff_getElem.mp hfind
    have hk := hbefore k (by omega)
    have hget : s[k] = c := by
      rw [List.getElem?_eq_getElem (by omega), Option.some.injEq] at h
      exact h
    simp [hget] at hk

/-- A position up to the end of a header value still has that line's CR ahead of it. -/
theorem next_cr_of_le {buffer header_name : Bytes} {value length i : Nat}
    (h : header_value buffer header_name = some (value, length)) (hi : i ≤ value + length) :
    ∃ k, next_cr buffer i = some k := by
  obtain ⟨-, hend, hcr⟩ := header_value_bounds h
  have hdrop : cstr buffer i = (cstr buffer 0).drop i := by
    have hadd := @cstr_add buffer 0 i (by omega)
    rwa [Nat.zero_add] at hadd
  have hat : (cstr buffer i)[value + length - i]? = some CR := by
    rw [hdrop, List.getElem?_drop, ← hcr]
    congr 1
    omega
  obtain ⟨j, hj, -⟩ := findIdx?_le_of_getElem? hat
  exact ⟨i + j, by rw [next_cr, hj]; rfl⟩

theorem get_parameter_none {buffer : Bytes} {start length skip : Nat} (hterm : Terminated buffer start)
    (hlength : length ≠ 0) (h : parameter_start buffer start skip = none) :
    get_parameter buffer (some start) length skip = ok none := by
  rw [parameter_start, Option.map_eq_none_iff] at h
  simp [get_parameter, hlength, strchr_eq hterm (c := SEMICOLON) (by decide), h]

/-- The extractor from its start on. -/
theorem parameter_scan {buffer : Bytes} {start length skip position : Nat}
    (hterm : Terminated buffer start) (hlength : length ≠ 0)
    (h : parameter_start buffer start skip = some position) :
    get_parameter buffer (some start) length skip = (do
      let tag_end := (← strchr buffer position CR).getD (start + length)
      ok (some (position, sizeSub tag_end position))) := by
  obtain ⟨k, hk, hposition⟩ := Option.map_eq_some_iff.mp h
  have hlt := (List.findIdx?_eq_some_iff_findIdx_eq.mp hk).1
  have hname := hterm.add (k := k + 1) (by omega)
  rw [← Nat.add_assoc] at hname
  simp only [get_parameter, if_neg hlength, strchr_eq hterm (c := SEMICOLON) (by decide), hk,
    Option.map_some, bind_ok, skipWhile_eq hname (by decide : is_blank NUL = false), hposition]

/-- Inside the buffer the extractor answers with its start and the distance to the next
CR; with no CR left it measures back to the header's end. -/
theorem get_parameter_some {buffer : Bytes} {start length skip position : Nat} (hbuffer : Buffered buffer)
    (hterm : Terminated buffer start) (hlength : length ≠ 0)
    (h : parameter_start buffer start skip = some position) (hin : position < buffer.length) :
    get_parameter buffer (some start) length skip =
      ok (some (position, sizeSub ((next_cr buffer position).getD (start + length)) position)) := by
  rw [parameter_scan hterm hlength h, strchr_eq_next_cr (hbuffer.terminated _ hin)]
  rfl

/-- Past the buffer's end the extractor's search for a CR reads outside it. -/
theorem get_parameter_outside {buffer : Bytes} {start length skip position : Nat}
    (hterm : Terminated buffer start) (hlength : length ≠ 0)
    (h : parameter_start buffer start skip = some position) (hout : buffer.length ≤ position) :
    get_parameter buffer (some start) length skip = error .outOfBounds := by
  rw [parameter_scan hterm hlength h, strchr_outside CR hout]
  rfl

end mock_uas.sip_message
