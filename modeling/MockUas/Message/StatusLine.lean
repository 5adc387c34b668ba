import MockUas.Message.FirstLine

open clib

namespace mock_uas.sip_message

/-- A status line, without its CRLF. -/
def status_line (status_code reason : Bytes) : Bytes :=
  SIP_PROTOCOL_AND_VERSION ++ [SPACE] ++ status_code ++ [SPACE] ++ reason

theorem length_status_line (status_code reason : Bytes) :
    (status_line status_code reason).length = 9 + status_code.length + reason.length := by
  have hversion : SIP_PROTOCOL_AND_VERSION.length = 7 := by decide
  simp only [status_line, List.length_append, List.length_singleton, hversion]
  omega

/-- Where the reason stands in a text that starts with a status line. -/
theorem reason_of_status_line (status_code reason rest : Bytes) :
    ((status_line status_code reason ++ rest).drop (9 + status_code.length)).take reason.length = reason := by
  have hfront : (SIP_PROTOCOL_AND_VERSION ++ [SPACE] ++ status_code ++ [SPACE]).length = 9 + status_code.length := by
    have hversion : SIP_PROTOCOL_AND_VERSION.length = 7 := by decide
    simp only [List.length_append, List.length_singleton, hversion]
    omega
  rw [← hfront, status_line, List.append_assoc _ reason, List.drop_left, List.take_left]

private theorem digit_ne_cr {b : UInt8} (h : isdigit b = true) : b ≠ CR := by
  rintro rfl
  exact absurd h (by decide)

private theorem digit_not_space {b : UInt8} (h : isdigit b = true) : is_space b = false := by
  cases hspace : is_space b with
  | false => rfl
  | true =>
    obtain rfl := beq_iff_eq.mp hspace
    exact absurd h (by decide)

/-- The reason ends at the first CRLF of the text. -/
theorem status_line_oneLine {status_code reason : Bytes} (hdigits : ∀ b ∈ status_code, isdigit b = true)
    (hreason : infixIdx CRLF reason = none) : infixIdx CRLF (status_line status_code reason) = none := by
  have hversion : CR ∉ SIP_PROTOCOL_AND_VERSION ++ [SPACE] := by decide
  refine infixIdx_append (infixIdx_of_not_mem fun hmem => ?_) hreason (.inl ?_)
  · rcases List.mem_append.mp hmem with hmem | hmem
    · rcases List.mem_append.mp hmem with hmem | hmem
      · exact hversion hmem
      · exact digit_ne_cr (hdigits _ hmem) rfl
    · exact absurd hmem (by decide)
  · rw [List.getLast?_concat]
    decide

/-- What the parser reads in a text that starts with a status line. -/
theorem parse_first_line_status {message : sip_message_t} {status_code reason rest : Bytes}
    (hterm : Terminated message.buffer 0) (hbound : message.buffer.length < sizeMax)
    (htext : cstr message.buffer 0 = status_line status_code reason ++ CRLF ++ rest)
    (hne : status_code ≠ []) (hdigits : ∀ b ∈ status_code, isdigit b = true)
    (hreason : infixIdx CRLF reason = none) :
    parse_first_line message = ok (.ERROR_NONE, { message with
      is_request := false
      version_major := 2
      version_minor := 0
      status_code := intCast (min (decimal status_code) (2 ^ 63 - 1))
      reason := some (9 + status_code.length)
      reason_length := reason.length }) := by
  have hlength := length_status_line status_code reason
  have hin := length_cstr_lt hterm
  have hfits : 9 + status_code.length + reason.length < message.buffer.length := by
    rw [htext, List.append_assoc, List.length_append, hlength] at hin
    omega
  have hversion : SIP_PROTOCOL_AND_VERSION = [83, 73, 80, SLASH, 50, 46, 48] := by decide
  have hat : ∀ k, k ≤ (status_line status_code reason).length →
      cstr message.buffer k = (status_line status_code reason).drop k ++ CRLF ++ rest ∧
        Terminated message.buffer k := by
    intro k hk
    have hle : k ≤ (cstr message.buffer 0).length := by
      rw [htext, List.append_assoc, List.length_append]
      omega
    have hcut := @cstr_add message.buffer 0 k hle
    rw [Nat.zero_add, htext, List.append_assoc, List.drop_append_of_le_length hk, ← List.append_assoc] at hcut
    exact ⟨hcut, terminated_of_le hterm hle⟩
  have hline : strstr message.buffer 0 CRLF = ok (some (9 + status_code.length + reason.length)) := by
    rw [strstr_eq hterm (by decide) (by decide), htext, List.append_assoc]
    have hend := infixIdx_line (status_line_oneLine hdigits hreason) rest
    rw [hlength] at hend
    rw [show CRLF ++ rest = CR :: LF :: rest from rfl, hend]
    simp
  have hsip : strncmpEq message.buffer 0 (ascii "SIP") = ok true := by
    rw [strncmpEq_eq hterm (by decide), htext, status_line, hversion]
    rfl
  have hdash : strchr message.buffer 0 SLASH = ok (some 3) := by
    rw [strchr_eq hterm (by decide), htext, status_line, hversion]
    rfl
  have hmajor : atoi message.buffer 4 = ok 2 := by
    obtain ⟨htail, htail_term⟩ := hat 4 (by omega)
    rw [status_line, hversion] at htail
    exact @atoi_eq _ [50] _ _ htail_term htail (List.cons_ne_nil _ _) (List.all_eq_true.mp (by decide))
      (by simp [isdigit])
  have hminor : atoi message.buffer 6 = ok 0 := by
    obtain ⟨htail, htail_term⟩ := hat 6 (by omega)
    rw [status_line, hversion] at htail
    exact @atoi_eq _ [48] _ _ htail_term htail (List.cons_ne_nil _ _) (List.all_eq_true.mp (by decide))
      (by simp [isdigit, SPACE])
  have hcode_start : skipUntil is_space (9 + status_code.length + reason.length) message.buffer 7 = ok 8 := by
    obtain ⟨htail, htail_term⟩ := hat 7 (by omega)
    obtain ⟨b, tail, hcons⟩ := List.exists_cons_of_ne_nil hne
    have hdigit := digit_not_space (hdigits b (by simp [hcons]))
    rw [skipUntil_eq htail_term (by rw [htail]; simp [hlength]; omega), htail, status_line, hversion, hcons]
    have hspace : is_space SPACE = true := rfl
    have hpred : 9 + (b :: tail).length + reason.length - 7 = (tail.length + reason.length + 1) + 2 := by
      rw [List.length_cons]
      omega
    rw [hpred]
    simp [hspace, hdigit]
  have hcode : atoi message.buffer 8 = ok (intCast (min (decimal status_code) (2 ^ 63 - 1))) := by
    obtain ⟨htail, htail_term⟩ := hat 8 (by omega)
    rw [status_line, hversion] at htail
    refine @atoi_eq _ _ (SPACE :: reason ++ CRLF ++ rest) _ htail_term ?_ hne hdigits ?_
    · rw [htail]
      simp
    · simp [isdigit, SPACE]
  have hreason_start : skipUntil (fun b => !is_space b) (9 + status_code.length + reason.length) message.buffer 8 =
      ok (8 + status_code.length) := by
    obtain ⟨htail, htail_term⟩ := hat 8 (by omega)
    have hdrop : (status_line status_code reason).drop 8 = status_code ++ SPACE :: reason := by
      rw [status_line, hversion]
      simp
    have htake : 9 + status_code.length + reason.length - 8 = (status_code ++ SPACE :: reason).length := by
      rw [List.length_append, List.length_cons]
      omega
    rw [skipUntil_eq htail_term (by rw [htail, hdrop]; simp; omega), htail, hdrop, htake, List.append_assoc,
      List.take_left, takeWhile_append_of_all (fun b hb => by rw [digit_not_space (hdigits b hb)]; rfl)
        (by simp [is_space])]
  simp only [parse_first_line, hline, bind_ok, hsip, if_true, parse_status_line, hdash, hmajor, hminor]
  rw [if_neg (by omega), if_neg (by simp), hcode_start]
  simp only [bind_ok, if_neg (show ¬ 8 ≥ 9 + status_code.length + reason.length by omega), hcode, hreason_start]
  have hstart : 8 + status_code.length + 1 = 9 + status_code.length := by omega
  rw [if_neg (by omega), hstart, sizeSub_eq (by omega) (by omega), Nat.add_sub_cancel_left]

end mock_uas.sip_message
