import MockUas.Message.ParameterExact
import Mathlib.Data.List.DropRight

open clib

namespace mock_uas.sip_message

def DQUOTE : UInt8 := 34
def BACKSLASH : UInt8 := 92

/-- Where a reader of a header value stands: between its parts, in a quoted string, behind a
backslash in one, or between angle brackets. -/
inductive Scan where
  | plain
  | quoted
  | escaped
  | angle
  deriving DecidableEq

def Scan.next : Scan → UInt8 → Scan
  | .plain, b => if b = DQUOTE then .quoted else if b = LAQUOT then .angle else .plain
  | .quoted, b => if b = BACKSLASH then .escaped else if b = DQUOTE then .plain else .quoted
  | .escaped, _ => .quoted
  | .angle, b => if b = RAQUOT then .plain else .angle

/-- A value cut at its semicolons. One in a quoted string or between angle brackets cuts nothing. -/
def pieces : Scan → Bytes → List Bytes
  | _, [] => [[]]
  | scan, b :: rest =>
    if scan = .plain ∧ b = SEMICOLON then [] :: pieces .plain rest
    else (pieces (scan.next b) rest).modifyHead (b :: ·)

/-- Every quoted string and every angle bracket of a value ends in it. -/
def Balanced (value : Bytes) : Prop := value.foldl Scan.next .plain = .plain

instance (value : Bytes) : Decidable (Balanced value) := inferInstanceAs (Decidable (_ = _))

/-- A text without the blanks around it. -/
def trimmed (s : Bytes) : Bytes := (s.dropWhile is_blank).rdropWhile is_blank

def param_name (piece : Bytes) : Bytes := trimmed (piece.takeWhile (· != EQUALS))

def param_value (piece : Bytes) : Option Bytes := (piece.dropWhile (· != EQUALS)).tail?.map trimmed

/-- The values of the header parameters with a name, in upper or lower case. -/
def params_named (name value : Bytes) : List (Option Bytes) :=
  ((pieces .plain value).tail.filter fun piece => same_name name (param_name piece)).map param_value

example : params_named PARAM_NAME_TAG (ascii "\"a;tag=b\" <sip:c;tag=d>;x; Tag = e ;tags=f") = [some (ascii "e")] := by
  decide

private theorem pieces_semicolon (rest : Bytes) : pieces .plain (SEMICOLON :: rest) = [] :: pieces .plain rest :=
  if_pos ⟨rfl, rfl⟩

theorem pieces_ne_nil (scan : Scan) (value : Bytes) : pieces scan value ≠ [] := by
  induction value generalizing scan with
  | nil => exact List.cons_ne_nil _ _
  | cons b value ih =>
    rw [pieces]
    split
    · exact List.cons_ne_nil _ _
    · obtain ⟨piece, more, hpieces⟩ := List.exists_cons_of_ne_nil (ih (scan.next b))
      rw [hpieces, List.modifyHead_cons]
      exact List.cons_ne_nil _ _

theorem pieces_of_not_mem {s : Bytes} (h : SEMICOLON ∉ s) (scan : Scan) : pieces scan s = [s] := by
  induction s generalizing scan with
  | nil => rfl
  | cons b s ih =>
    rw [List.mem_cons, not_or] at h
    rw [pieces, if_neg fun hb => h.1 hb.2.symm, ih h.2, List.modifyHead_cons]

/-- Behind a balanced value a semicolon separates what follows. -/
theorem pieces_balanced {value : Bytes} {scan : Scan} (h : value.foldl Scan.next scan = .plain) (rest : Bytes) :
    pieces scan (value ++ SEMICOLON :: rest) = pieces scan value ++ pieces .plain rest := by
  induction value generalizing scan with
  | nil =>
    obtain rfl : scan = .plain := h
    rw [List.nil_append, pieces_semicolon]
    rfl
  | cons b value ih =>
    rw [List.cons_append, pieces, pieces]
    split
    · rename_i hb
      obtain ⟨rfl, rfl⟩ := hb
      rw [show pieces .plain (value ++ SEMICOLON :: rest) = _ from ih h, List.cons_append]
    · obtain ⟨piece, more, hpieces⟩ := List.exists_cons_of_ne_nil (pieces_ne_nil (scan.next b) value)
      rw [ih h, hpieces, List.cons_append, List.modifyHead_cons, List.modifyHead_cons, List.cons_append]

/-- Behind a value that is not balanced a semicolon separates nothing: what follows belongs to its
last piece. -/
theorem pieces_unbalanced {value rest : Bytes} {scan : Scan} (hunbalanced : value.foldl Scan.next scan ≠ .plain)
    (hrest : SEMICOLON ∉ rest) :
    ∃ before last, pieces scan value = before ++ [last] ∧
      pieces scan (value ++ SEMICOLON :: rest) = before ++ [last ++ SEMICOLON :: rest] := by
  induction value generalizing scan with
  | nil =>
    refine ⟨[], [], rfl, ?_⟩
    rw [List.nil_append, pieces, if_neg fun hb => hunbalanced hb.1, pieces_of_not_mem hrest, List.modifyHead_cons]
    rfl
  | cons b value ih =>
    rw [List.cons_append, pieces, pieces]
    split
    · rename_i hb
      obtain ⟨rfl, rfl⟩ := hb
      obtain ⟨before, last, hvalue, hwhole⟩ := ih hunbalanced
      exact ⟨[] :: before, last, congrArg ([] :: ·) hvalue, congrArg ([] :: ·) hwhole⟩
    · obtain ⟨before, last, hvalue, hwhole⟩ := ih hunbalanced
      rw [hvalue, hwhole]
      cases before with
      | nil => exact ⟨[], b :: last, rfl, rfl⟩
      | cons piece before => exact ⟨(b :: piece) :: before, last, rfl, rfl⟩

/-- Every piece stands in the value, the first one at its start. -/
private theorem pieces_infix (scan : Scan) (value : Bytes) :
    ∃ first more, pieces scan value = first :: more ∧ first <+: value ∧ ∀ piece ∈ more, piece <:+: value := by
  induction value generalizing scan with
  | nil => exact ⟨[], [], rfl, List.prefix_rfl, nofun⟩
  | cons b value ih =>
    rw [pieces]
    split
    · obtain ⟨first, more, hpieces, hfirst, hmore⟩ := ih .plain
      refine ⟨[], _, rfl, List.nil_prefix, ?_⟩
      rw [hpieces, List.forall_mem_cons]
      exact ⟨List.infix_cons hfirst.isInfix, fun piece hpiece => List.infix_cons (hmore piece hpiece)⟩
    · obtain ⟨first, more, hpieces, hfirst, hmore⟩ := ih (scan.next b)
      rw [hpieces, List.modifyHead_cons]
      exact ⟨_, more, rfl, (List.prefix_cons_inj b).mpr hfirst,
        fun piece hpiece => List.infix_cons (hmore piece hpiece)⟩

theorem infix_of_mem_pieces {value piece : Bytes} {scan : Scan} (h : piece ∈ pieces scan value) : piece <:+: value := by
  obtain ⟨first, more, hpieces, hfirst, hmore⟩ := pieces_infix scan value
  rw [hpieces] at h
  rcases List.mem_cons.mp h with rfl | h
  · exact hfirst.isInfix
  · exact hmore piece h

theorem infix_of_trimmed (s : Bytes) : trimmed s <:+: s :=
  (List.rdropWhile_prefix is_blank _).isInfix.trans (List.dropWhile_suffix _).isInfix

theorem trimmed_of_no_blank {s : Bytes} (h : ∀ b ∈ s, is_blank b = false) : trimmed s = s := by
  have hstart : s.dropWhile is_blank = s := by
    rw [List.dropWhile_eq_self_iff]
    intro hl
    rw [h _ (List.getElem_mem hl)]
    exact Bool.false_ne_true
  rw [trimmed, hstart, List.rdropWhile_eq_self_iff]
  intro hl
  rw [h _ (List.getLast_mem hl)]
  exact Bool.false_ne_true

theorem mem_trimmed {s : Bytes} {b : UInt8} (hmem : b ∈ s) (hb : is_blank b = false) : b ∈ trimmed s := by
  have hblank : ¬ is_blank b = true := by simp [hb]
  have hstart : b ∈ s.dropWhile is_blank := by
    rw [← List.takeWhile_append_dropWhile (p := is_blank) (l := s), List.mem_append] at hmem
    exact hmem.resolve_left fun hin => hblank (List.mem_takeWhile_imp hin)
  rw [← @List.rdropWhile_append_rtakeWhile _ is_blank (s.dropWhile is_blank), List.mem_append] at hstart
  exact hstart.resolve_right fun hin => hblank (List.mem_rtakeWhile_imp hin)

/-- A byte that only one of two texts has tells them apart. -/
theorem not_same_name {name name' : Bytes} {b : UInt8} (hmem : b ∈ name') (hb : tolower b ∉ name.map tolower) :
    same_name name name' = false := by
  rw [same_name, beq_eq_false_iff_ne]
  intro hsame
  exact hb (hsame ▸ List.mem_map_of_mem hmem)

/-- A text cut at the first of a byte. -/
theorem cut_at {c : UInt8} {front : Bytes} (h : c ∉ front) (rest : Bytes) :
    (front ++ c :: rest).takeWhile (· != c) = front ∧ (front ++ c :: rest).dropWhile (· != c) = c :: rest := by
  have hfront : ∀ b ∈ front, (b != c) = true := by
    intro b hb
    have hne : b ≠ c := fun he => h (he ▸ hb)
    simpa using hne
  constructor
  · rw [List.takeWhile_append_of_pos hfront]
    simp
  · rw [List.dropWhile_append_of_pos hfront]
    simp

theorem param_of_cut {name : Bytes} (h : EQUALS ∉ name) (value : Bytes) :
    param_name (name ++ EQUALS :: value) = trimmed name ∧
      param_value (name ++ EQUALS :: value) = some (trimmed value) := by
  obtain ⟨htake, hdrop⟩ := cut_at h value
  exact ⟨by rw [param_name, htake], by rw [param_value, hdrop]; rfl⟩

theorem infix_of_param_value {piece value : Bytes} (h : param_value piece = some value) : value <:+: piece := by
  obtain ⟨text, htail, rfl⟩ := Option.map_eq_some_iff.mp h
  obtain ⟨b, hcons⟩ : ∃ b, piece.dropWhile (· != EQUALS) = b :: text := by
    cases hdrop : piece.dropWhile (· != EQUALS) with
    | nil => simp [hdrop] at htail
    | cons b rest => exact ⟨b, by simpa [hdrop] using htail⟩
  have hsuffix := List.dropWhile_suffix (l := piece) (· != EQUALS)
  rw [hcons] at hsuffix
  exact (infix_of_trimmed text).trans ((List.suffix_cons b text).trans hsuffix).isInfix

/-- A parameter's value stands in the header value. -/
theorem infix_of_mem_params {name value text : Bytes} (h : some text ∈ params_named name value) : text <:+: value := by
  obtain ⟨piece, hpiece, hvalue⟩ := List.mem_map.mp h
  have hmem := List.mem_of_mem_tail (List.mem_filter.mp hpiece).1
  exact (infix_of_param_value hvalue).trans (infix_of_mem_pieces hmem)

section Tag

variable {value tag : Bytes} (hdigits : ∀ b ∈ tag, isdigit b = true)
include hdigits

private theorem digits_plain : SEMICOLON ∉ ascii "tag=" ++ tag ∧ ∀ b ∈ tag, is_blank b = false := by
  constructor
  · intro hmem
    rcases List.mem_append.mp hmem with hmem | hmem
    · exact absurd hmem (by decide)
    · exact absurd (hdigits _ hmem) (by decide)
  · intro b hb
    cases hblank : is_blank b with
    | false => rfl
    | true =>
      have hdigit := hdigits b hb
      simp only [is_blank, SPACE, Bool.or_eq_true, beq_iff_eq] at hblank
      rcases hblank with rfl | rfl <;> cases hdigit

/-- A tag appended to a balanced value is a parameter of its own. -/
theorem params_named_balanced (hbalanced : Balanced value) :
    params_named PARAM_NAME_TAG (value ++ (ascii ";tag=" ++ tag)) =
      params_named PARAM_NAME_TAG value ++ [some tag] := by
  obtain ⟨hpiece, hblanks⟩ := digits_plain hdigits
  obtain ⟨hname, hvalue⟩ := param_of_cut (by decide : EQUALS ∉ PARAM_NAME_TAG) tag
  rw [trimmed_of_no_blank hblanks] at hvalue
  have hsame : same_name PARAM_NAME_TAG (param_name (ascii "tag=" ++ tag)) = true := by
    rw [show ascii "tag=" ++ tag = PARAM_NAME_TAG ++ EQUALS :: tag from rfl, hname]
    decide
  rw [params_named, show ascii ";tag=" ++ tag = SEMICOLON :: (ascii "tag=" ++ tag) from rfl, pieces_balanced hbalanced,
    pieces_of_not_mem hpiece, List.tail_append_of_ne_nil (pieces_ne_nil _ _), List.filter_append, List.map_append,
    List.filter_singleton, hsame]
  exact congrArg (_ ++ [·]) hvalue

/-- Appended to a value that is not balanced, a tag that does not stand there is no parameter. -/
theorem not_mem_params_unbalanced (hunbalanced : ¬ Balanced value) (hnot : ¬ tag <:+: value) :
    some tag ∉ params_named PARAM_NAME_TAG (value ++ (ascii ";tag=" ++ tag)) := by
  intro hmem
  obtain ⟨piece, hpiece, htag⟩ := List.mem_map.mp hmem
  obtain ⟨hpiece, hsame⟩ := List.mem_filter.mp hpiece
  obtain ⟨before, last, hvalue, hwhole⟩ := pieces_unbalanced hunbalanced (digits_plain hdigits).1
  have hin := List.mem_of_mem_tail hpiece
  rw [show pieces .plain (value ++ (ascii ";tag=" ++ tag)) = _ from hwhole] at hin
  rcases List.mem_append.mp hin with hin | hin
  · have hmem : piece ∈ pieces .plain value := by
      rw [hvalue]
      exact List.mem_append_left _ hin
    exact hnot ((infix_of_param_value htag).trans (infix_of_mem_pieces hmem))
  · rw [List.mem_singleton.mp hin] at htag hsame
    by_cases hequals : EQUALS ∈ last
    · obtain ⟨name, text, rfl, hname⟩ := List.eq_append_cons_of_mem hequals
      rw [List.append_assoc, List.cons_append, (param_of_cut hname _).2, Option.some.injEq] at htag
      have hsemicolon : SEMICOLON ∈ trimmed (text ++ SEMICOLON :: (ascii "tag=" ++ tag)) :=
        mem_trimmed (List.mem_append_right _ List.mem_cons_self) (by decide)
      rw [htag] at hsemicolon
      exact absurd (hdigits _ hsemicolon) (by decide)
    · have hname : EQUALS ∉ last ++ ascii ";tag" := by
        rw [List.mem_append, not_or]
        exact ⟨hequals, by decide⟩
      have hcut : last ++ SEMICOLON :: (ascii "tag=" ++ tag) = (last ++ ascii ";tag") ++ EQUALS :: tag := by
        rw [List.append_assoc]
        rfl
      have hsemicolon : SEMICOLON ∈ trimmed (last ++ ascii ";tag") :=
        mem_trimmed (List.mem_append_right _ List.mem_cons_self) (by decide)
      rw [hcut, (param_of_cut hname _).1, not_same_name hsemicolon (by decide)] at hsame
      cases hsame

end Tag

end mock_uas.sip_message
