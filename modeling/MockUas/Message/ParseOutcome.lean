import MockUas.Message.ParseSpec

open clib

namespace mock_uas.sip_message

/-- How a stage of the parser ends: it leaves the buffer exactly when `reads` fails, and
otherwise accepts exactly when `complete` holds, with a message as `final` describes. -/
def Outcome (result : Result (sip_msg_error_t × sip_message_t)) (reads complete : Prop)
    (final : sip_message_t → Prop) : Prop :=
  match result with
  | .error fault => fault = .outOfBounds ∧ ¬ reads
  | .ok (err, after) => reads ∧ (err = .ERROR_NONE ↔ complete) ∧ (err = .ERROR_NONE → final after)

private theorem outcome_rejected {err : sip_msg_error_t} {after : sip_message_t} {reads complete : Prop}
    {final : sip_message_t → Prop} (herr : err ≠ .ERROR_NONE) (hreads : reads) (hcomplete : ¬ complete) :
    Outcome (ok (err, after)) reads complete final :=
  ⟨hreads, ⟨fun h => absurd h herr, fun h => absurd h hcomplete⟩, fun h => absurd h herr⟩

private theorem Outcome.imp {result : Result (sip_msg_error_t × sip_message_t)}
    {reads reads' complete complete' : Prop} {final final' : sip_message_t → Prop}
    (h : Outcome result reads complete final) (hreads : reads' ↔ reads) (hcomplete : complete' ↔ complete)
    (hfinal : ∀ after, final after → final' after) : Outcome result reads' complete' final' := by
  cases result with
  | error fault => exact ⟨h.1, fun hr => h.2 (hreads.mp hr)⟩
  | ok result => exact ⟨hreads.mpr h.1, h.2.1.trans hcomplete.symm, fun herr => hfinal _ (h.2.2 herr)⟩

private theorem parameter_at_of_value {buffer header_name : Bytes} {value length : Nat} (skip : Nat)
    (hvalue : header_value buffer header_name = some (value, length)) :
    parameter_at buffer header_name skip = parameter_start buffer value skip := by
  simp [parameter_at, hvalue]

/-- What the extractor of a present header's parameter does, in the three cases its
callers tell apart. -/
private theorem get_parameter_cases {buffer header_name : Bytes} {value length : Nat} (skip : Nat)
    (hbuffer : Buffered buffer) (hvalue : header_value buffer header_name = some (value, length))
    (hlength : length ≠ 0) :
    (get_parameter buffer (some value) length skip = error .outOfBounds ∧
      ¬ StartsInBuffer buffer header_name skip) ∨
    (get_parameter buffer (some value) length skip = ok none ∧
      StartsInBuffer buffer header_name skip ∧ ¬ FoundNonempty buffer header_name skip ∧
      parameter_start buffer value skip = none) ∨
    ∃ position, parameter_start buffer value skip = some position ∧ position < buffer.length ∧
      get_parameter buffer (some value) length skip =
        ok (some (position, parameter_length buffer (value + length) position)) ∧
      StartsInBuffer buffer header_name skip ∧
      (parameter_length buffer (value + length) position ≠ 0 ↔ FoundNonempty buffer header_name skip) := by
  obtain ⟨-, hend, -⟩ := header_value_bounds hvalue
  have hstart := (hbuffer.terminated 0 hbuffer.nonempty).add (k := value) (by omega)
  rw [Nat.zero_add] at hstart
  have hat := parameter_at_of_value skip hvalue
  cases hposition : parameter_start buffer value skip with
  | none =>
    refine Or.inr (Or.inl ⟨get_parameter_none hstart hlength hposition, ?_, ?_, rfl⟩)
    · intro position h
      rw [hat, hposition] at h
      cases h
    · rintro ⟨position, h, -⟩
      rw [hat, hposition] at h
      cases h
  | some position =>
    by_cases hin : position < buffer.length
    · refine Or.inr (Or.inr ⟨position, rfl, hin, get_parameter_some hbuffer hstart hlength hposition hin, ?_, ?_⟩)
      · intro found h
        rw [hat, hposition, Option.some.injEq] at h
        omega
      · rw [Ne, parameter_length_eq_zero_iff hbuffer hvalue hin]
        constructor
        · exact fun hne => ⟨position, hat.trans hposition, hne⟩
        · rintro ⟨found, h, hne⟩
          rw [hat, hposition, Option.some.injEq] at h
          rwa [h]
    · refine Or.inl ⟨get_parameter_outside hstart hlength hposition (by omega), fun h => hin ?_⟩
      exact h position (hat.trans hposition)

private theorem not_present_of_none {buffer header_name : Bytes}
    (h : header_value buffer header_name = none) : ¬ Present buffer header_name := by
  rintro ⟨value, length, hvalue, -⟩
  rw [h] at hvalue
  cases hvalue

private theorem not_present_of_empty {buffer header_name : Bytes} {value : Nat}
    (h : header_value buffer header_name = some (value, 0)) : ¬ Present buffer header_name := by
  rintro ⟨value', length, hvalue, hlength⟩
  rw [h] at hvalue
  cases hvalue
  exact hlength rfl

private theorem parse_last_headers_outcome (message : sip_message_t) (hbuffer : Buffered message.buffer)
    (hrequest : message.is_request = true) (hcseq : message.cseq = none) :
    Outcome (parse_last_headers message) True
      (Present message.buffer HEADER_NAME_CSEQ ∧ Present message.buffer HEADER_NAME_MAX_FORWARDS ∧
        Present message.buffer HEADER_NAME_CONTENT_LENGTH)
      (fun after => ∃ value length,
        after = { message with cseq := some value, cseq_length := length } ∧
        HeaderSlice message.buffer HEADER_NAME_CSEQ (some value) length) := by
  obtain ⟨-, -, -, -, hname, hmax, hcontent⟩ := plain_header_names
  unfold parse_last_headers get_message_cseq get_message_header
  rw [hcseq]
  simp only [hbuffer.get_header_value hname, bind_ok]
  cases hvalue : header_value message.buffer HEADER_NAME_CSEQ with
  | none =>
    exact outcome_rejected (fun h => by cases h) trivial fun h => not_present_of_none hvalue h.1
  | some slice =>
    obtain ⟨value, length⟩ := slice
    by_cases hlength : length = 0
    · subst hlength
      exact outcome_rejected (fun h => by cases h) trivial fun h => not_present_of_empty hvalue h.1
    have hpresent : Present message.buffer HEADER_NAME_CSEQ := ⟨value, length, hvalue, hlength⟩
    have hmissing : missing (some (value, length)) = false := by simpa [missing] using hlength
    simp only [bind_ok, hmissing, Bool.false_eq_true, if_false, hrequest, if_true,
      hbuffer.get_header_value hmax, hbuffer.get_header_value hcontent]
    by_cases hno_max : missing (header_value message.buffer HEADER_NAME_MAX_FORWARDS) = true
    · rw [if_pos hno_max]
      exact outcome_rejected (fun h => by cases h) trivial fun h => missing_eq_true_iff.mp hno_max h.2.1
    rw [if_neg hno_max]
    by_cases hno_content : missing (header_value message.buffer HEADER_NAME_CONTENT_LENGTH) = true
    · rw [if_pos hno_content]
      exact outcome_rejected (fun h => by cases h) trivial fun h => missing_eq_true_iff.mp hno_content h.2.2
    · rw [if_neg hno_content]
      have hmax_present := not_not.mp fun h => hno_max (missing_eq_true_iff.mpr h)
      have hcontent_present := not_not.mp fun h => hno_content (missing_eq_true_iff.mpr h)
      exact ⟨trivial, ⟨fun _ => ⟨hpresent, hmax_present, hcontent_present⟩, fun _ => rfl⟩,
        fun _ => ⟨value, length, rfl, value, rfl, hvalue, hlength⟩⟩

private theorem parse_via_outcome (message : sip_message_t) (hbuffer : Buffered message.buffer)
    (hrequest : message.is_request = true) (hvia : message.via = none) (hcseq : message.cseq = none) :
    Outcome (parse_via message) (ReadsVia message.buffer)
      (Present message.buffer HEADER_NAME_VIA ∧ FoundNonempty message.buffer HEADER_NAME_VIA 7 ∧
        Present message.buffer HEADER_NAME_CSEQ ∧ Present message.buffer HEADER_NAME_MAX_FORWARDS ∧
        Present message.buffer HEADER_NAME_CONTENT_LENGTH)
      (fun after => ∃ via via_length branch branch_length cseq cseq_length,
        after = { message with via, via_length, branch, branch_length, cseq, cseq_length } ∧
        HeaderSlice message.buffer HEADER_NAME_VIA via via_length ∧
        ParameterSlice message.buffer HEADER_NAME_VIA 7 branch branch_length ∧
        (branch ≠ none ∧ branch_length ≠ 0) ∧
        HeaderSlice message.buffer HEADER_NAME_CSEQ cseq cseq_length) := by
  obtain ⟨-, -, -, hname, -⟩ := plain_header_names
  unfold parse_via get_message_via get_message_header
  rw [hvia]
  simp only [hbuffer.get_header_value hname, bind_ok]
  cases hvalue : header_value message.buffer HEADER_NAME_VIA with
  | none =>
    exact outcome_rejected (fun h => by cases h) (fun h => absurd h (not_present_of_none hvalue))
      fun h => not_present_of_none hvalue h.1
  | some slice =>
    obtain ⟨value, length⟩ := slice
    by_cases hlength : length = 0
    · subst hlength
      exact outcome_rejected (fun h => by cases h) (fun h => absurd h (not_present_of_empty hvalue))
        fun h => not_present_of_empty hvalue h.1
    have hpresent : Present message.buffer HEADER_NAME_VIA := ⟨value, length, hvalue, hlength⟩
    have hmissing : missing (some (value, length)) = false := by simpa [missing] using hlength
    simp only [bind_ok, hmissing, Bool.false_eq_true, if_false, get_branch_param]
    obtain ⟨hscan, houtside⟩ | ⟨hscan, hinside, hempty, -⟩ | ⟨position, hstart, hin, hscan, hinside, hfound⟩ :=
      get_parameter_cases 7 hbuffer hvalue hlength
    · rw [hscan]
      exact ⟨rfl, fun h => houtside (h hpresent)⟩
    · rw [hscan]
      exact outcome_rejected (fun h => by cases h) (fun _ => hinside) fun h => hempty h.2.1
    · rw [hscan]
      by_cases hzero : parameter_length message.buffer (value + length) position = 0
      · simp only [bind_ok, hzero, missing, beq_self_eq_true, if_true]
        exact outcome_rejected (fun h => by cases h) (fun _ => hinside) fun h => hfound.mpr h.2.1 hzero
      · have hnonempty : missing (some (position, parameter_length message.buffer (value + length) position)) =
            false := by simpa [missing] using hzero
        simp only [bind_ok, hnonempty, Bool.false_eq_true, if_false]
        have hlast := parse_last_headers_outcome { message with
          via := some value, via_length := length, branch := some position
          branch_length := parameter_length message.buffer (value + length) position }
          hbuffer hrequest hcseq
        refine hlast.imp ⟨fun _ => trivial, fun _ _ => hinside⟩
          ⟨fun h => h.2.2, fun h => ⟨hpresent, hfound.mp hzero, h⟩⟩ ?_
        rintro after ⟨cseq, cseq_length, rfl, hslice⟩
        refine ⟨some value, length, some position, _, some cseq, cseq_length, rfl,
          ⟨value, rfl, hvalue, hlength⟩, ⟨value, length, hvalue, hstart.symm, ?_⟩, ⟨Option.some_ne_none _, hzero⟩, hslice⟩
        rintro found ⟨⟩
        exact ⟨hin, rfl⟩

private theorem parse_to_outcome (message : sip_message_t) (hbuffer : Buffered message.buffer)
    (hrequest : message.is_request = true) (hto : message.to_ = none) (hto_tag : message.to_tag = none)
    (hvia : message.via = none) (hcseq : message.cseq = none) :
    Outcome (parse_to message) (ReadsTo message.buffer)
      (Present message.buffer HEADER_NAME_TO ∧ Present message.buffer HEADER_NAME_VIA ∧
        FoundNonempty message.buffer HEADER_NAME_VIA 7 ∧
        Present message.buffer HEADER_NAME_CSEQ ∧ Present message.buffer HEADER_NAME_MAX_FORWARDS ∧
        Present message.buffer HEADER_NAME_CONTENT_LENGTH)
      (fun after => ∃ to_ to_length to_tag to_tag_length via via_length branch branch_length cseq cseq_length,
        after = { message with
          to_, to_length, to_tag, to_tag_length, via, via_length, branch, branch_length, cseq, cseq_length } ∧
        HeaderSlice message.buffer HEADER_NAME_TO to_ to_length ∧
        ParameterSlice message.buffer HEADER_NAME_TO 4 to_tag to_tag_length ∧
        HeaderSlice message.buffer HEADER_NAME_VIA via via_length ∧
        ParameterSlice message.buffer HEADER_NAME_VIA 7 branch branch_length ∧
        (branch ≠ none ∧ branch_length ≠ 0) ∧
        HeaderSlice message.buffer HEADER_NAME_CSEQ cseq cseq_length) := by
  obtain ⟨-, -, hname, -⟩ := plain_header_names
  unfold parse_to get_message_to get_message_header
  rw [hto]
  simp only [hbuffer.get_header_value hname, bind_ok]
  cases hvalue : header_value message.buffer HEADER_NAME_TO with
  | none =>
    exact outcome_rejected (fun h => by cases h) (fun h => absurd h (not_present_of_none hvalue))
      fun h => not_present_of_none hvalue h.1
  | some slice =>
    obtain ⟨value, length⟩ := slice
    by_cases hlength : length = 0
    · subst hlength
      exact outcome_rejected (fun h => by cases h) (fun h => absurd h (not_present_of_empty hvalue))
        fun h => not_present_of_empty hvalue h.1
    have hpresent : Present message.buffer HEADER_NAME_TO := ⟨value, length, hvalue, hlength⟩
    have hmissing : missing (some (value, length)) = false := by simpa [missing] using hlength
    simp only [bind_ok, hmissing, Bool.false_eq_true, if_false, get_to_tag]
    obtain ⟨hscan, houtside⟩ | ⟨hscan, hinside, -, hstart⟩ | ⟨position, hstart, hin, hscan, hinside, -⟩ :=
      get_parameter_cases 4 hbuffer hvalue hlength
    · rw [hscan]
      exact ⟨rfl, fun h => houtside (h hpresent).1⟩
    · rw [hscan]
      have hrest := parse_via_outcome { message with to_ := some value, to_length := length }
        hbuffer hrequest hvia hcseq
      refine hrest.imp ⟨fun h => (h hpresent).2, fun h _ => ⟨hinside, h⟩⟩
        ⟨fun h => h.2, fun h => ⟨hpresent, h⟩⟩ ?_
      rintro after ⟨via, via_length, branch, branch_length, cseq, cseq_length, rfl, hslices⟩
      refine ⟨some value, length, none, message.to_tag_length, via, via_length, branch, branch_length,
        cseq, cseq_length, ?_, ⟨value, rfl, hvalue, hlength⟩,
        ⟨value, length, hvalue, hstart.symm, fun _ h => by cases h⟩, hslices⟩
      rw [← hto_tag]
    · rw [hscan]
      have hrest := parse_via_outcome { message with
        to_ := some value, to_length := length, to_tag := some position
        to_tag_length := parameter_length message.buffer (value + length) position } hbuffer hrequest hvia hcseq
      refine hrest.imp ⟨fun h => (h hpresent).2, fun h _ => ⟨hinside, h⟩⟩
        ⟨fun h => h.2, fun h => ⟨hpresent, h⟩⟩ ?_
      rintro after ⟨via, via_length, branch, branch_length, cseq, cseq_length, rfl, hslices⟩
      refine ⟨some value, length, some position, _, via, via_length, branch, branch_length, cseq, cseq_length,
        rfl, ⟨value, rfl, hvalue, hlength⟩, ⟨value, length, hvalue, hstart.symm, ?_⟩, hslices⟩
      rintro found ⟨⟩
      exact ⟨hin, rfl⟩

/-- From the From header on, the parser leaves the buffer exactly when `ReadsFrom` fails
and accepts exactly the complete texts. -/
theorem parse_from_outcome (message : sip_message_t) (hbuffer : Buffered message.buffer)
    (hrequest : message.is_request = true) (hfrom : message.from_ = none) (hto : message.to_ = none)
    (hto_tag : message.to_tag = none) (hvia : message.via = none) (hcseq : message.cseq = none) :
    Outcome (parse_from message) (ReadsFrom message.buffer) (Complete message.buffer)
      (fun after => withoutHeaders after = withoutHeaders message ∧ HeadersRecorded message.buffer after) := by
  obtain ⟨-, hname, -⟩ := plain_header_names
  unfold parse_from get_message_from get_message_header
  rw [hfrom]
  simp only [hbuffer.get_header_value hname, bind_ok]
  cases hvalue : header_value message.buffer HEADER_NAME_FROM with
  | none =>
    exact outcome_rejected (fun h => by cases h) (fun h => absurd h (not_present_of_none hvalue))
      fun h => not_present_of_none hvalue h.from_
  | some slice =>
    obtain ⟨value, length⟩ := slice
    by_cases hlength : length = 0
    · subst hlength
      exact outcome_rejected (fun h => by cases h) (fun h => absurd h (not_present_of_empty hvalue))
        fun h => not_present_of_empty hvalue h.from_
    have hpresent : Present message.buffer HEADER_NAME_FROM := ⟨value, length, hvalue, hlength⟩
    have hmissing : missing (some (value, length)) = false := by simpa [missing] using hlength
    simp only [bind_ok, hmissing, Bool.false_eq_true, if_false, get_from_tag]
    obtain ⟨hscan, houtside⟩ | ⟨hscan, hinside, hempty, -⟩ | ⟨position, hstart, hin, hscan, hinside, hfound⟩ :=
      get_parameter_cases 4 hbuffer hvalue hlength
    · rw [hscan]
      exact ⟨rfl, fun h => houtside (h hpresent).1⟩
    · rw [hscan]
      exact outcome_rejected (fun h => by cases h) (fun _ => ⟨hinside, fun h => absurd h hempty⟩)
        fun h => hempty h.from_tag
    · rw [hscan]
      by_cases hzero : parameter_length message.buffer (value + length) position = 0
      · simp only [bind_ok, hzero, missing, beq_self_eq_true, if_true]
        exact outcome_rejected (fun h => by cases h) (fun _ => ⟨hinside, fun h => absurd hzero (hfound.mpr h)⟩)
          fun h => hfound.mpr h.from_tag hzero
      · have hnonempty : missing (some (position, parameter_length message.buffer (value + length) position)) =
            false := by simpa [missing] using hzero
        simp only [bind_ok, hnonempty, Bool.false_eq_true, if_false]
        have hrest := parse_to_outcome { message with
          from_ := some value, from_length := length, from_tag := some position
          from_tag_length := parameter_length message.buffer (value + length) position }
          hbuffer hrequest hto hto_tag hvia hcseq
        refine hrest.imp ⟨fun h => (h hpresent).2 (hfound.mp hzero), fun h _ => ⟨hinside, fun _ => h⟩⟩ ?_ ?_
        · constructor
          · exact fun h => ⟨h.to_, h.via, h.branch, h.cseq, h.max_forwards, h.content_length⟩
          · rintro ⟨hto', hvia', hbranch, hcseq', hmax, hcontent⟩
            exact ⟨hpresent, hfound.mp hzero, hto', hvia', hbranch, hcseq', hmax, hcontent⟩
        · rintro after ⟨to_, to_length, to_tag, to_tag_length, via, via_length, branch, branch_length,
            cseq, cseq_length, rfl, hto_slice, htag_slice, hvia_slice, hbranch_slice, hbranch, hcseq_slice⟩
          refine ⟨rfl, ⟨value, rfl, hvalue, hlength⟩, ⟨value, length, hvalue, hstart.symm, ?_⟩,
            ⟨Option.some_ne_none _, hzero⟩, hto_slice, htag_slice, hvia_slice, hbranch_slice, hbranch, hcseq_slice⟩
          rintro found ⟨⟩
          exact ⟨hin, rfl⟩

end mock_uas.sip_message
