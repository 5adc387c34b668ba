import MockUas.Message.FirstLineSlices

open clib

namespace mock_uas.sip_message

/-- Whether the first line in a buffer is accepted, and if so, whether as a request line. -/
def verdict (buffer : Bytes) : Option Bool :=
  match parse_first_line (zeroed buffer) with
  | ok (err, message) => if err = .ERROR_NONE then some message.is_request else none
  | error _ => none

def KnownMethod (method : Bytes) : Prop := ∃ entry ∈ METHOD_NAMES, same_name entry.1 method = true

/-- One or more spaces. -/
def Spaces (s : Bytes) : Prop := s ≠ [] ∧ ∀ b ∈ s, b = SPACE

/-- A known method, spaces, a URI, spaces, and the version. -/
def RequestLine (line : Bytes) : Prop :=
  ∃ method spaces uri gap, line = method ++ spaces ++ uri ++ gap ++ SIP_PROTOCOL_AND_VERSION ∧
    KnownMethod method ∧ Spaces spaces ∧ (uri ≠ [] ∧ SPACE ∉ uri) ∧ Spaces gap

/-- The version, spaces, a code of decimal digits, a space and a reason. -/
def StatusLine (line : Bytes) : Prop :=
  ∃ spaces code reason, line = SIP_PROTOCOL_AND_VERSION ++ spaces ++ code ++ SPACE :: reason ∧
    Spaces spaces ∧ code ≠ [] ∧ ∀ b ∈ code, isdigit b = true

/-- A line that is taken for a request line where some text follows it: a known method, spaces, a
URI and a space, and behind the first slash after it a 2 and, two bytes further, a 0, as `atoi`
reads them. -/
def TakenForRequest (line tail : Bytes) : Prop :=
  ∃ method spaces uri front version, line = method ++ SPACE :: (spaces ++ (uri ++ SPACE :: (front ++ SLASH :: version))) ∧
    KnownMethod method ∧ (∀ b ∈ spaces, b = SPACE) ∧ (uri ≠ [] ∧ SPACE ∉ uri) ∧ SLASH ∉ front ∧
    2 ≤ version.length ∧ number (version ++ tail) = 2 ∧ number (version.drop 2 ++ tail) = 0

/-- A line that is taken for a status line: it starts with `SIP`, has a 2 and a 0 behind its first
slash as a request line has, and from the byte after these on, a space behind something else. -/
def TakenForStatus (line tail : Bytes) : Prop :=
  ∃ front version, line = front ++ SLASH :: version ∧ ascii "SIP" <+: line ∧ SLASH ∉ front ∧
    number (version ++ tail) = 2 ∧ number (version.drop 2 ++ tail) = 0 ∧
    SPACE ∈ (version.drop 3).dropWhile is_space

/-- The parser accepts the first line of a text exactly if it is one, and decides by that line. -/
structure ExactFirstLine (text rest : Bytes) : Prop where
  request : verdict (text ++ NUL :: rest) = some true ↔ ∃ line behind, FirstLine text line behind ∧ RequestLine line
  status : verdict (text ++ NUL :: rest) = some false ↔ ∃ line behind, FirstLine text line behind ∧ StatusLine line
  same : ∀ line behind text' rest' behind', FirstLine text line behind → NUL ∉ text' →
    (text' ++ NUL :: rest').length < sizeMax → FirstLine text' line behind' →
    verdict (text' ++ NUL :: rest') = verdict (text ++ NUL :: rest)

/-- The line is well formed, or is taken neither for a request line nor for a status line. -/
def Sound (line : Bytes) : Prop :=
  (TakenForRequest line [] → RequestLine line) ∧ (TakenForStatus line [] → StatusLine line)

private theorem known_method_bytes {method : Bytes} (h : KnownMethod method) :
    SPACE ∉ method ∧ ∀ rest, (ascii "SIP").isPrefixOf (method ++ rest) = false := by
  have hnames : METHOD_NAMES.all (fun entry => !(entry.1.map tolower).contains SPACE && 3 ≤ entry.1.length &&
      !((ascii "SIP").map tolower).isPrefixOf (entry.1.map tolower)) = true := by decide
  obtain ⟨entry, hmem, hsame⟩ := h
  have hentry := List.all_eq_true.mp hnames entry hmem
  have heq : entry.1.map tolower = method.map tolower := by simpa [same_name] using hsame
  have hlength : entry.1.length = method.length := by simpa using congrArg List.length heq
  simp only [Bool.and_eq_true, Bool.not_eq_true', decide_eq_true_eq, heq, List.contains_eq_mem,
    decide_eq_false_iff_not] at hentry
  obtain ⟨⟨hspace, hlong⟩, hsip⟩ := hentry
  refine ⟨fun hmem => hspace (List.mem_map_of_mem (f := tolower) hmem), fun rest => ?_⟩
  cases hstarts : (ascii "SIP").isPrefixOf (method ++ rest) with
  | false => rfl
  | true =>
    have hthree : (ascii "SIP").length ≤ method.length := by
      rw [← hlength]
      exact hlong
    have hmethod := List.prefix_of_prefix_length_le (List.isPrefixOf_iff_prefix.mp hstarts)
      (List.prefix_append method rest) hthree
    rw [List.isPrefixOf_iff_prefix.mpr (hmethod.map tolower)] at hsip
    cases hsip

theorem method_in_known_iff {method rest : Bytes} :
    method_in (method ++ rest) method.length ≠ .UNKNOWN ↔ KnownMethod method := by
  rw [method_in_ne_unknown_iff]
  constructor
  · rintro ⟨entry, hmem, hlength, hstarts⟩
    exact ⟨entry, hmem, (same_name_iff hlength.symm).mpr hstarts⟩
  · rintro ⟨entry, hmem, hsame⟩
    have heq : entry.1.map tolower = method.map tolower := by simpa [same_name] using hsame
    have hlength : entry.1.length = method.length := by simpa using congrArg List.length heq
    exact ⟨entry, hmem, hlength.symm, (same_name_iff hlength).mp hsame⟩

theorem FirstLine.infixIdx {text line behind : Bytes} (h : FirstLine text line behind) :
    infixIdx CRLF text = some line.length := by
  obtain ⟨rfl, hline⟩ := h
  rw [List.append_assoc]
  exact infixIdx_line ((infixIdx_eq_none_iff (by decide)).mpr hline) behind

theorem FirstLine.unique {text line behind line' behind' : Bytes} (h : FirstLine text line behind)
    (h' : FirstLine text line' behind') : line = line' := by
  have hlength := Option.some.inj (h.infixIdx.symm.trans h'.infixIdx)
  obtain ⟨heq, -⟩ := h
  obtain ⟨heq', -⟩ := h'
  rw [heq, List.append_assoc, List.append_assoc] at heq'
  exact (List.append_inj heq' hlength).1

/-- What stands in a line in front of what the parser reads as the version. -/
private theorem cut_line {front version line tail : Bytes} (htext : front ++ version = line ++ tail)
    (hle : front.length ≤ line.length) : ∃ v, line = front ++ v ∧ version = v ++ tail := by
  have hfront : front <+: line :=
    List.prefix_of_prefix_length_le (List.prefix_append front version) (htext ▸ List.prefix_append line tail) hle
  obtain ⟨v, rfl⟩ := hfront
  rw [List.append_assoc] at htext
  exact ⟨v, rfl, List.append_cancel_left htext⟩

private theorem requestText_iff {text line behind : Bytes} (h : FirstLine text line behind) :
    (∃ method spaces uri front version, RequestText text line.length method spaces uri front version) ↔
      TakenForRequest line (CRLF ++ behind) := by
  obtain ⟨htext, -⟩ := h
  rw [List.append_assoc] at htext
  constructor
  · rintro ⟨method, spaces, uri, front, version, htaken⟩
    have hinside := htaken.rest.inside
    have hcut := htaken.cut
    rw [htext] at hcut
    obtain ⟨v, rfl, rfl⟩ := @cut_line (method ++ SPACE :: (spaces ++ (uri ++ SPACE :: (front ++ [SLASH])))) version line
      (CRLF ++ behind) (by rw [hcut]; simp) (by simp; omega)
    have hknown := htaken.known
    rw [htaken.cut, method_in_known_iff] at hknown
    have hroom : 2 ≤ v.length := by
      simp only [List.length_append, List.length_cons, List.length_nil] at hinside
      omega
    have hminor := htaken.rest.minor
    rw [List.drop_append_of_le_length hroom] at hminor
    exact ⟨method, spaces, uri, front, v, by simp, hknown, htaken.rest.blank, htaken.rest.uri_plain,
      htaken.rest.front_plain, hroom, htaken.rest.major, hminor⟩
  · rintro ⟨method, spaces, uri, front, v, rfl, hknown, hspaces, huri, hfront, hroom, hmajor, hminor⟩
    have hcut : text = method ++ SPACE :: (spaces ++ (uri ++ SPACE :: (front ++ SLASH :: (v ++ (CRLF ++ behind))))) := by
      rw [htext]
      simp
    refine ⟨method, spaces, uri, front, v ++ (CRLF ++ behind), hcut, (known_method_bytes hknown).1, ?_, ?_, ?_⟩
    · simp only [List.length_append, List.length_cons]
      omega
    · rw [hcut]
      exact method_in_known_iff.mpr hknown
    · refine ⟨rfl, hspaces, huri, hfront, ?_, hmajor, ?_⟩
      · simp only [List.length_append, List.length_cons]
        omega
      · rwa [List.drop_append_of_le_length hroom]

private theorem statusText_iff {text line behind : Bytes} (h : FirstLine text line behind) :
    ((∃ front version spaces code reason, StatusText text line.length front version spaces code reason) ∧
      (ascii "SIP").isPrefixOf text = true) ↔ TakenForStatus line (CRLF ++ behind) := by
  obtain ⟨htext, -⟩ := h
  rw [List.append_assoc] at htext
  constructor
  · rintro ⟨⟨front, version, spaces, code, reason, htaken⟩, hsip⟩
    have hinside := htaken.code_inside
    have hcut := htaken.cut
    rw [htext] at hcut
    obtain ⟨v, rfl, rfl⟩ := @cut_line (front ++ [SLASH]) version line (CRLF ++ behind) (by rw [hcut]; simp)
      (by simp; omega)
    simp only [List.length_append, List.length_cons, List.length_nil] at hinside
    have hminor := htaken.minor
    rw [List.drop_append_of_le_length (by omega)] at hminor
    have hcode := htaken.code_cut
    rw [List.drop_append_of_le_length (by omega)] at hcode
    obtain ⟨r, hreason, -⟩ := @cut_line (spaces ++ code ++ [SPACE]) reason (v.drop 3) (CRLF ++ behind)
      (by rw [hcode]; simp) (by simp; omega)
    refine ⟨front, v, by simp, ?_, htaken.front_plain, htaken.major, hminor, ?_⟩
    · refine List.prefix_of_prefix_length_le (List.isPrefixOf_iff_prefix.mp hsip) ?_ ?_
      · rw [htext]
        exact List.prefix_append _ _
      · rw [show (ascii "SIP").length = 3 from rfl, List.length_append, List.length_append]
        omega
    · obtain ⟨b, code, rfl⟩ := List.exists_cons_of_ne_nil htaken.code_plain.1
      have hb : is_space b = false := by
        have hne : b ≠ SPACE := fun he => htaken.code_plain.2 (by simp [he])
        simpa [is_space] using hne
      have hspaces : ∀ b ∈ spaces, is_space b = true := by
        intro b hb
        rw [htaken.blank b hb]
        rfl
      rw [hreason, List.append_assoc, List.append_assoc, List.dropWhile_append_of_pos hspaces, List.cons_append,
        List.dropWhile_cons, hb, if_neg Bool.false_ne_true]
      simp
  · rintro ⟨front, v, rfl, hsip, hfront, hmajor, hminor, hspace⟩
    obtain ⟨code, reason, hcode, hplain⟩ := List.eq_append_cons_of_mem hspace
    have hsplit : v.drop 3 = (v.drop 3).takeWhile is_space ++ (code ++ SPACE :: reason) := by
      rw [← hcode, List.takeWhile_append_dropWhile]
    have hlength := congrArg List.length hsplit
    simp only [List.length_append, List.length_cons, List.length_drop] at hlength
    refine ⟨⟨front, v ++ (CRLF ++ behind), (v.drop 3).takeWhile is_space, code, reason ++ (CRLF ++ behind), ?_, hfront, ?_,
      hmajor, ?_, ?_, ?_, ⟨?_, hplain⟩, ?_⟩, ?_⟩
    · rw [htext, List.append_assoc, List.cons_append]
    · simp only [List.length_append, List.length_cons]
      omega
    · rwa [List.drop_append_of_le_length (by omega)]
    · rw [List.drop_append_of_le_length (by omega)]
      conv => lhs; rw [hsplit]
      simp
    · intro b hb
      simpa [is_space] using List.mem_takeWhile_imp hb
    · rintro rfl
      have hhead := List.head_dropWhile_not is_space (l := v.drop 3) (by rw [hcode]; simp)
      simp [hcode, is_space] at hhead
    · simp only [List.length_append, List.length_cons]
      omega
    · rw [htext, List.isPrefixOf_iff_prefix]
      exact hsip.trans (List.prefix_append _ _)

private theorem verdict_eq {text : Bytes} (htext : NUL ∉ text) (rest : Bytes) :
    verdict (text ++ NUL :: rest) = if (first_line_in (zeroed (text ++ NUL :: rest)) text).1 = .ERROR_NONE then
      some (first_line_in (zeroed (text ++ NUL :: rest)) text).2.is_request else none := by
  have hparse := @parse_first_line_eq (zeroed (text ++ NUL :: rest)) text (holding_text htext rest) rfl
  rw [verdict, hparse]

/-- The first line is taken for a request line or a status line with what follows it. -/
theorem verdict_iff {text line behind rest : Bytes} (htext : NUL ∉ text) (hbound : (text ++ NUL :: rest).length < sizeMax)
    (h : FirstLine text line behind) :
    (verdict (text ++ NUL :: rest) = some true ↔ TakenForRequest line (CRLF ++ behind)) ∧
      (verdict (text ++ NUL :: rest) = some false ↔ TakenForStatus line (CRLF ++ behind)) := by
  rw [List.length_append] at hbound
  have hlength : text.length < sizeMax := by omega
  have hline := h.infixIdx
  rw [verdict_eq htext, ← requestText_iff h, ← statusText_iff h]
  generalize zeroed (text ++ NUL :: rest) = message
  constructor
  · constructor
    · intro hverdict
      split at hverdict
      · rename_i haccepted
        obtain ⟨line_end, hend, htaken⟩ := accepted_first_line hlength haccepted
        obtain rfl := Option.some.inj (hline.symm.trans hend)
        rcases htaken with ⟨front, version, spaces, code, reason, htaken, -, hafter⟩ |
          ⟨method, spaces, uri, front, version, htaken, -, -⟩
        · rw [hafter, status_line_in_of_statusText _ htaken] at hverdict
          cases hverdict
        · exact ⟨method, spaces, uri, front, version, htaken⟩
      · cases hverdict
    · rintro ⟨method, spaces, uri, front, version, htaken⟩
      have hknown := htaken.known
      rw [htaken.cut, method_in_known_iff] at hknown
      have hsip : (ascii "SIP").isPrefixOf text = false := by
        rw [htaken.cut]
        exact (known_method_bytes hknown).2 _
      rw [first_line_in, hline]
      simp only [hsip, Bool.false_eq_true, if_false]
      rw [request_line_in_of_requestText _ hlength htaken]
      rfl
  · constructor
    · intro hverdict
      split at hverdict
      · rename_i haccepted
        obtain ⟨line_end, hend, htaken⟩ := accepted_first_line hlength haccepted
        obtain rfl := Option.some.inj (hline.symm.trans hend)
        rcases htaken with ⟨front, version, spaces, code, reason, htaken, hsip, -⟩ |
          ⟨method, spaces, uri, front, version, htaken, -, hafter⟩
        · exact ⟨⟨front, version, spaces, code, reason, htaken⟩, hsip⟩
        · rw [hafter, request_line_in_of_requestText _ hlength htaken] at hverdict
          cases hverdict
      · cases hverdict
    · rintro ⟨⟨front, version, spaces, code, reason, htaken⟩, hsip⟩
      rw [first_line_in, hline]
      simp only [hsip, if_true]
      rw [status_line_in_of_statusText _ htaken]
      rfl

private theorem blank_drop {v : Bytes} (h : v.dropWhile isspace = []) (n : Nat) : (v.drop n).dropWhile isspace = [] := by
  rw [List.dropWhile_eq_nil_iff] at h ⊢
  exact fun b hb => h b (List.mem_of_mem_drop hb)

/-- The version numbers of a line are read from the line. Where only space is left of it, both
would be the number behind it. -/
private theorem numbers_of_tail {v behind : Bytes} (hmajor : number (v ++ (CRLF ++ behind)) = 2)
    (hminor : number (v.drop 2 ++ (CRLF ++ behind)) = 0) : number (v ++ []) = 2 ∧ number (v.drop 2 ++ []) = 0 := by
  have hcrlf : CRLF ++ behind = CR :: LF :: behind := rfl
  rw [hcrlf] at hmajor hminor
  by_cases hblank : v.dropWhile isspace = []
  · rw [number_skip _ hblank] at hmajor
    rw [number_skip _ (blank_drop hblank 2), hmajor] at hminor
    cases hminor
  · rw [number_before_cr _ hblank] at hmajor
    rw [List.append_nil]
    refine ⟨hmajor, ?_⟩
    by_cases hrest : (v.drop 2).dropWhile isspace = []
    · rw [number_skip _ hrest]
      rfl
    · rwa [List.append_nil, ← number_before_cr (LF :: behind) hrest]

private theorem numbers_with_crlf {v : Bytes} (hmajor : number (v ++ []) = 2) (hminor : number (v.drop 2 ++ []) = 0) :
    number (v ++ CRLF) = 2 ∧ number (v.drop 2 ++ CRLF) = 0 := by
  rw [List.append_nil] at hmajor hminor
  constructor
  · by_cases hblank : v.dropWhile isspace = []
    · have hnone := number_skip [] hblank
      rw [List.append_nil, hmajor] at hnone
      cases hnone
    · exact (number_before_cr [LF] hblank).trans hmajor
  · by_cases hrest : (v.drop 2).dropWhile isspace = []
    · exact number_skip _ hrest
    · exact (number_before_cr [LF] hrest).trans hminor

theorem TakenForRequest.alone {line behind : Bytes} (h : TakenForRequest line (CRLF ++ behind)) :
    TakenForRequest line [] := by
  obtain ⟨method, spaces, uri, front, version, hline, hknown, hspaces, huri, hfront, hroom, hmajor, hminor⟩ := h
  obtain ⟨hmajor, hminor⟩ := numbers_of_tail hmajor hminor
  exact ⟨method, spaces, uri, front, version, hline, hknown, hspaces, huri, hfront, hroom, hmajor, hminor⟩

theorem TakenForRequest.with_crlf {line : Bytes} (h : TakenForRequest line []) : TakenForRequest line CRLF := by
  obtain ⟨method, spaces, uri, front, version, hline, hknown, hspaces, huri, hfront, hroom, hmajor, hminor⟩ := h
  obtain ⟨hmajor, hminor⟩ := numbers_with_crlf hmajor hminor
  exact ⟨method, spaces, uri, front, version, hline, hknown, hspaces, huri, hfront, hroom, hmajor, hminor⟩

theorem TakenForStatus.alone {line behind : Bytes} (h : TakenForStatus line (CRLF ++ behind)) :
    TakenForStatus line [] := by
  obtain ⟨front, version, hline, hsip, hfront, hmajor, hminor, hspace⟩ := h
  obtain ⟨hmajor, hminor⟩ := numbers_of_tail hmajor hminor
  exact ⟨front, version, hline, hsip, hfront, hmajor, hminor, hspace⟩

theorem TakenForStatus.with_crlf {line : Bytes} (h : TakenForStatus line []) : TakenForStatus line CRLF := by
  obtain ⟨front, version, hline, hsip, hfront, hmajor, hminor, hspace⟩ := h
  obtain ⟨hmajor, hminor⟩ := numbers_with_crlf hmajor hminor
  exact ⟨front, version, hline, hsip, hfront, hmajor, hminor, hspace⟩

private theorem version_numbers (rest : Bytes) {c : UInt8} (hc : isdigit c = false) :
    number (ascii "2.0" ++ c :: rest) = 2 ∧ number ((ascii "2.0").drop 2 ++ c :: rest) = 0 := by
  have htwo : intCast (min (decimal [50]) (2 ^ 63 - 1)) = 2 := by decide
  have hzero : intCast (min (decimal [48]) (2 ^ 63 - 1)) = 0 := by decide
  have hmajor := @number_of_digits [50] (46 :: 48 :: c :: rest) (List.cons_ne_nil _ _)
    (List.all_eq_true.mp (by decide)) (by simp [isdigit])
  have hminor := @number_of_digits [48] (c :: rest) (List.cons_ne_nil _ _) (List.all_eq_true.mp (by decide))
    (by simpa using hc)
  rw [htwo] at hmajor
  rw [hzero] at hminor
  rw [show ascii "2.0" = [50, 46, 48] from rfl]
  exact ⟨hmajor, hminor⟩

/-- A request line is taken for one, whatever follows it. -/
theorem RequestLine.taken {line : Bytes} (h : RequestLine line) (behind : Bytes) :
    TakenForRequest line (CRLF ++ behind) := by
  obtain ⟨method, spaces, uri, gap, rfl, hknown, ⟨hspaces, hblank⟩, huri, hgap, hgap_blank⟩ := h
  obtain ⟨b, spaces, rfl⟩ := List.exists_cons_of_ne_nil hspaces
  obtain rfl := hblank b List.mem_cons_self
  obtain ⟨c, gap, rfl⟩ := List.exists_cons_of_ne_nil hgap
  obtain rfl := hgap_blank c List.mem_cons_self
  obtain ⟨hmajor, hminor⟩ := version_numbers (LF :: behind) (c := CR) rfl
  refine ⟨method, spaces, uri, gap ++ ascii "SIP", ascii "2.0", ?_, hknown,
    fun b hb => hblank b (List.mem_cons_of_mem _ hb), huri, ?_, by decide, hmajor, hminor⟩
  · rw [show SIP_PROTOCOL_AND_VERSION = ascii "SIP" ++ SLASH :: ascii "2.0" from rfl]
    simp
  · intro hmem
    rcases List.mem_append.mp hmem with hmem | hmem
    · exact absurd (hgap_blank SLASH (List.mem_cons_of_mem _ hmem)) (by decide)
    · exact absurd hmem (by decide)

theorem StatusLine.taken {line : Bytes} (h : StatusLine line) (behind : Bytes) :
    TakenForStatus line (CRLF ++ behind) := by
  obtain ⟨spaces, code, reason, rfl, ⟨hspaces, hblank⟩, hcode, hdigits⟩ := h
  obtain ⟨b, spaces, rfl⟩ := List.exists_cons_of_ne_nil hspaces
  obtain rfl := hblank b List.mem_cons_self
  obtain ⟨c, code, rfl⟩ := List.exists_cons_of_ne_nil hcode
  have hc : is_space c = false := by
    have hdigit := hdigits c List.mem_cons_self
    simp only [is_space, beq_eq_false_iff_ne, ne_eq]
    rintro rfl
    cases hdigit
  obtain ⟨hmajor, hminor⟩ := version_numbers (spaces ++ c :: code ++ SPACE :: reason ++ (CRLF ++ behind)) (c := SPACE) rfl
  refine ⟨ascii "SIP", ascii "2.0" ++ SPACE :: (spaces ++ c :: code ++ SPACE :: reason), ?_, ?_, by decide, ?_, ?_, ?_⟩
  · rw [show SIP_PROTOCOL_AND_VERSION = ascii "SIP" ++ SLASH :: ascii "2.0" from rfl]
    simp
  · rw [show SIP_PROTOCOL_AND_VERSION = ascii "SIP" ++ ascii "/2.0" from rfl]
    simp only [List.append_assoc]
    exact List.prefix_append _ _
  · rw [List.append_assoc, List.cons_append]
    exact hmajor
  · rw [List.drop_append_of_le_length (by decide), List.append_assoc, List.cons_append]
    exact hminor
  · have hspaces : ∀ b ∈ SPACE :: spaces, is_space b = true := by
      intro b hb
      rw [hblank b hb]
      rfl
    rw [show (ascii "2.0" ++ SPACE :: (spaces ++ c :: code ++ SPACE :: reason)).drop 3 =
        (SPACE :: spaces) ++ (c :: code ++ SPACE :: reason) by rw [List.cons_append, ← List.append_assoc]; rfl,
      List.dropWhile_append_of_pos hspaces, List.cons_append, List.dropWhile_cons, hc, if_neg Bool.false_ne_true]
    simp

private theorem Sound.verdict_iff {text line behind rest : Bytes} (hsound : Sound line) (htext : NUL ∉ text)
    (hbound : (text ++ NUL :: rest).length < sizeMax) (h : FirstLine text line behind) :
    (verdict (text ++ NUL :: rest) = some true ↔ RequestLine line) ∧
      (verdict (text ++ NUL :: rest) = some false ↔ StatusLine line) := by
  obtain ⟨hrequest, hstatus⟩ := sip_message.verdict_iff htext hbound h
  rw [hrequest, hstatus]
  exact ⟨⟨fun htaken => hsound.1 htaken.alone, fun hline => hline.taken behind⟩,
    ⟨fun htaken => hsound.2 htaken.alone, fun hline => hline.taken behind⟩⟩

private theorem firstLine_of_verdict {text rest : Bytes} (htext : NUL ∉ text)
    (hbound : (text ++ NUL :: rest).length < sizeMax) {is_request : Bool}
    (h : verdict (text ++ NUL :: rest) = some is_request) : ∃ line behind, FirstLine text line behind := by
  rw [verdict_eq htext] at h
  split at h
  · rename_i haccepted
    rw [List.length_append] at hbound
    obtain ⟨line_end, hline, -⟩ := accepted_first_line (by omega) haccepted
    exact ⟨_, _, (firstLine_of_infixIdx hline).1⟩
  · cases h

/-- The parser accepts exactly the SIP/2.0 first lines in a buffer if and only if its first line
is well formed or is not taken for one. -/
theorem exact_first_line_iff (text rest : Bytes) (htext : NUL ∉ text)
    (hbound : (text ++ NUL :: rest).length < sizeMax) :
    ExactFirstLine text rest ↔ ∀ line behind, FirstLine text line behind → Sound line := by
  constructor
  · intro hexact line behind h
    have hlength := congrArg List.length h.1
    have hnul : NUL ∉ line ++ CRLF := fun hmem => htext (h.1 ▸ List.mem_append_left _ hmem)
    have hshort : ((line ++ CRLF) ++ NUL :: []).length < sizeMax := by
      simp only [List.length_append, List.length_cons, List.length_nil] at hlength hbound ⊢
      omega
    have hfirst : FirstLine (line ++ CRLF) line [] := ⟨by rw [List.append_nil], h.2⟩
    obtain ⟨hrequest, hstatus⟩ := verdict_iff hnul hshort hfirst
    have hsame := hexact.same line behind _ [] [] h hnul hshort hfirst
    rw [List.append_nil] at hrequest hstatus
    constructor
    · intro htaken
      obtain ⟨line', behind', h', hline⟩ := hexact.request.mp (hsame ▸ hrequest.mpr htaken.with_crlf)
      rwa [h.unique h']
    · intro htaken
      obtain ⟨line', behind', h', hline⟩ := hexact.status.mp (hsame ▸ hstatus.mpr htaken.with_crlf)
      rwa [h.unique h']
  · intro hsound
    constructor
    · constructor
      · intro hverdict
        obtain ⟨line, behind, h⟩ := firstLine_of_verdict htext hbound hverdict
        exact ⟨line, behind, h, ((hsound line behind h).verdict_iff htext hbound h).1.mp hverdict⟩
      · rintro ⟨line, behind, h, hline⟩
        exact ((hsound line behind h).verdict_iff htext hbound h).1.mpr hline
    · constructor
      · intro hverdict
        obtain ⟨line, behind, h⟩ := firstLine_of_verdict htext hbound hverdict
        exact ⟨line, behind, h, ((hsound line behind h).verdict_iff htext hbound h).2.mp hverdict⟩
      · rintro ⟨line, behind, h, hline⟩
        exact ((hsound line behind h).verdict_iff htext hbound h).2.mpr hline
    · intro line behind text' rest' behind' h htext' hbound' h'
      obtain ⟨hrequest, hstatus⟩ := (hsound line behind h).verdict_iff htext hbound h
      obtain ⟨hrequest', hstatus'⟩ := (hsound line behind h).verdict_iff htext' hbound' h'
      apply Option.ext
      intro is_request
      cases is_request with
      | false => exact hstatus'.trans hstatus.symm
      | true => exact hrequest'.trans hrequest.symm

theorem bye_exact : ExactFirstLine (ascii "BYE sip:a SIP/2.0\r\n") CRLF := by
  refine (exact_first_line_iff _ CRLF (by decide) (by decide)).mpr fun line behind h => ?_
  have hfirst : FirstLine (ascii "BYE sip:a SIP/2.0\r\n") (ascii "BYE sip:a SIP/2.0") [] :=
    ⟨rfl, (infixIdx_eq_none_iff (by decide)).mp rfl⟩
  rw [h.unique hfirst]
  constructor
  · exact fun _ => ⟨ascii "BYE", [SPACE], ascii "sip:a", [SPACE], by decide, ⟨(ascii "BYE", .BYE), by decide, by decide⟩,
      ⟨nofun, fun b hb => List.mem_singleton.mp hb⟩, by decide, nofun, fun b hb => List.mem_singleton.mp hb⟩
  · rintro ⟨front, version, -, hsip, -⟩
    exact absurd hsip (by decide)

theorem other_protocol_accepted :
    ¬ ∀ text rest : Bytes, NUL ∉ text → (text ++ NUL :: rest).length < sizeMax → ExactFirstLine text rest := by
  intro hall
  have hexact := hall (ascii "BYE sip:a HTTP/2.0\r\n") [] (by decide) (by decide)
  have hfirst : FirstLine (ascii "BYE sip:a HTTP/2.0\r\n") (ascii "BYE sip:a HTTP/2.0") [] :=
    ⟨rfl, (infixIdx_eq_none_iff (by decide)).mp rfl⟩
  have haccepted : verdict (ascii "BYE sip:a HTTP/2.0\r\n" ++ [NUL]) = some true := by decide +kernel
  obtain ⟨line, behind, h, method, spaces, uri, gap, hline, -⟩ := hexact.request.mp haccepted
  rw [h.unique hfirst] at hline
  have hsuffix : SIP_PROTOCOL_AND_VERSION <:+ ascii "BYE sip:a HTTP/2.0" := by
    rw [hline]
    exact List.suffix_append _ _
  exact absurd hsuffix (by decide)

end mock_uas.sip_message
