import MockUas.Clib.ScanSpec

namespace clib

/-- The complete lines of a text, without their CRLF. Bytes after the last CRLF
belong to no line. -/
def crlfLines : Bytes → List Bytes
  | [] => []
  | [_] => []
  | b :: c :: rest =>
    if b = CR ∧ c = LF then [] :: crlfLines rest
    else match crlfLines (c :: rest) with
      | [] => []
      | line :: lines => (b :: line) :: lines

theorem crlfLines_of_none {s : Bytes} (h : infixIdx CRLF s = none) : crlfLines s = [] := by
  induction s with
  | nil => rfl
  | cons b rest ih =>
    rw [infixIdx] at h
    split at h
    · cases h
    · rename_i hp
      rw [Option.map_eq_none_iff] at h
      cases rest with
      | nil => rfl
      | cons c tail =>
        have hne : ¬ (b = CR ∧ c = LF) := by
          rintro ⟨rfl, rfl⟩
          simp [CRLF] at hp
        rw [crlfLines, if_neg hne, ih h]

/-- The first CRLF ends the first line, and the other lines follow it. -/
theorem crlfLines_of_some {s : Bytes} {k : Nat} (h : infixIdx CRLF s = some k) :
    crlfLines s = s.take k :: crlfLines (s.drop (k + 2)) := by
  induction s generalizing k with
  | nil => simp [infixIdx] at h
  | cons b rest ih =>
    rw [infixIdx] at h
    cases rest with
    | nil =>
      simp [CRLF, infixIdx] at h
    | cons c tail =>
      by_cases hp : b = CR ∧ c = LF
      · have hstarts : CRLF.isPrefixOf (b :: c :: tail) = true := by
          obtain ⟨rfl, rfl⟩ := hp
          simp [CRLF]
        rw [if_pos hstarts, Option.some.injEq] at h
        subst h
        rw [crlfLines, if_pos hp]
        rfl
      · have hstarts : ¬ CRLF.isPrefixOf (b :: c :: tail) = true := by
          intro hcontra
          rw [CRLF, List.isPrefixOf_cons_cons, List.isPrefixOf_cons_cons] at hcontra
          simp only [Bool.and_eq_true, beq_iff_eq] at hcontra
          exact hp ⟨hcontra.1.symm, hcontra.2.1.symm⟩
        rw [if_neg hstarts] at h
        obtain ⟨j, hj, rfl⟩ := Option.map_eq_some_iff.mp h
        rw [crlfLines, if_neg hp, ih hj]
        rfl

/-- An occurrence of a needle lies inside the text. -/
theorem infixIdx_le {needle s : Bytes} {k : Nat} (h : infixIdx needle s = some k) :
    k + needle.length ≤ s.length := by
  induction s generalizing k with
  | nil => simp [infixIdx] at h
  | cons b rest ih =>
    rw [infixIdx] at h
    split at h
    · rename_i hp
      rw [Option.some.injEq] at h
      have hle := (List.isPrefixOf_iff_prefix.mp hp).length_le
      omega
    · obtain ⟨j, hj, rfl⟩ := Option.map_eq_some_iff.mp h
      have hle := ih hj
      simp only [List.length_cons]
      omega

theorem starts_at_infixIdx {needle s : Bytes} {k : Nat} (h : infixIdx needle s = some k) :
    needle <+: s.drop k := by
  induction s generalizing k with
  | nil => simp [infixIdx] at h
  | cons b rest ih =>
    rw [infixIdx] at h
    split at h
    · rename_i hp
      cases h
      exact List.isPrefixOf_iff_prefix.mp hp
    · obtain ⟨j, hj, rfl⟩ := Option.map_eq_some_iff.mp h
      exact ih hj

/-- A search fails exactly when the text has no part that is the needle. -/
theorem infixIdx_eq_none_iff {needle s : Bytes} (hne : needle ≠ []) :
    infixIdx needle s = none ↔ ¬ needle <:+: s := by
  induction s with
  | nil => simp [infixIdx, hne]
  | cons b s ih =>
    rw [infixIdx, List.infix_cons_iff, not_or, ← ih]
    split
    · rename_i hstarts
      simp [List.isPrefixOf_iff_prefix.mp hstarts]
    · rename_i hstarts
      rw [Option.map_eq_none_iff]
      exact ⟨fun h => ⟨fun hp => hstarts (List.isPrefixOf_iff_prefix.mpr hp), h⟩, fun h => h.2⟩

/-- A needle that follows a separator at the end of a text, and occurs neither in front of it
nor shares a byte with it, occurs nowhere else. -/
theorem occurs_at_end {front separator needle before after : Bytes} (hfront : ¬ needle <:+: front)
    (hapart : ∀ b ∈ separator, b ∉ needle) (hseparator : separator ≠ []) (hneedle : needle ≠ [])
    (h : front ++ separator ++ needle = before ++ needle ++ after) : after = [] := by
  have hlength := congrArg List.length h
  simp only [List.length_append] at hlength
  have hseparator_pos := List.length_pos_iff.mpr hseparator
  have hneedle_pos := List.length_pos_iff.mpr hneedle
  by_cases hbefore : before.length + needle.length ≤ front.length
  · refine (hfront ?_).elim
    have hprefix : before ++ needle <+: front := by
      refine @List.prefix_of_prefix_length_le _ _ _ (before ++ needle ++ after) (List.prefix_append _ _) ?_ (by
        rw [List.length_append]
        exact hbefore)
      rw [← h, List.append_assoc]
      exact List.prefix_append _ _
    exact (List.suffix_append before needle).isInfix.trans hprefix.isInfix
  · by_cases hbehind : front.length + separator.length ≤ before.length
    · exact List.length_eq_zero_iff.mp (by omega)
    · -- the two overlap: some byte of the separator belongs to the needle
      obtain ⟨i, hi⟩ : ∃ i, i = max front.length before.length := ⟨_, rfl⟩
      have hleft : (front ++ separator ++ needle)[i]? = separator[i - front.length]? := by
        rw [List.append_assoc, List.getElem?_append_right (by omega), List.getElem?_append_left (by omega)]
      have hright : (before ++ needle ++ after)[i]? = needle[i - before.length]? := by
        rw [List.append_assoc, List.getElem?_append_right (by omega), List.getElem?_append_left (by omega)]
      rw [h, hright, List.getElem?_eq_getElem (by omega), List.getElem?_eq_getElem (by omega),
        Option.some.injEq] at hleft
      exact (hapart _ (List.getElem_mem _) (hleft ▸ List.getElem_mem _)).elim

/-- The text in front of the first CRLF has none. -/
theorem infixIdx_take {s : Bytes} {k : Nat} (h : infixIdx CRLF s = some k) : infixIdx CRLF (s.take k) = none := by
  induction s generalizing k with
  | nil => simp [infixIdx] at h
  | cons b s ih =>
    rw [infixIdx] at h
    split at h
    · cases h
      rfl
    · rename_i hstarts
      obtain ⟨j, hj, rfl⟩ := Option.map_eq_some_iff.mp h
      rw [List.take_succ_cons, infixIdx, if_neg, ih hj]
      · rfl
      · intro hp
        rw [List.isPrefixOf_iff_prefix, ← List.take_succ_cons] at hp
        exact hstarts (List.isPrefixOf_iff_prefix.mpr (hp.trans (List.take_prefix _ _)))

/-- At its first occurrence a CRLF cuts the text into a line and a rest. -/
theorem eq_line_append_of_some {s : Bytes} {k : Nat} (h : infixIdx CRLF s = some k) :
    s = s.take k ++ CR :: LF :: s.drop (k + 2) := by
  obtain ⟨rest, hrest⟩ := starts_at_infixIdx h
  have hdrop : s.drop (k + 2) = rest := by
    rw [← List.drop_drop, ← hrest]
    rfl
  calc s = s.take k ++ s.drop k := (List.take_append_drop k s).symm
    _ = s.take k ++ (CRLF ++ rest) := by rw [hrest]
    _ = s.take k ++ CR :: LF :: s.drop (k + 2) := by rw [hdrop]; rfl

/-- A text without a CRLF that is followed by one is the first line. -/
theorem infixIdx_line {line : Bytes} (h : infixIdx CRLF line = none) (rest : Bytes) :
    infixIdx CRLF (line ++ CR :: LF :: rest) = some line.length := by
  induction line with
  | nil => simp [infixIdx, CRLF]
  | cons b line ih =>
    rw [infixIdx] at h
    split at h
    · cases h
    · rename_i hstart
      have hstart' : ¬ CRLF.isPrefixOf (b :: (line ++ CR :: LF :: rest)) = true := by
        cases line with
        | nil =>
          have hne : LF ≠ CR := by decide
          simp [CRLF, hne]
        | cons c line => simpa [CRLF] using hstart
      rw [List.cons_append, infixIdx, if_neg hstart', ih (Option.map_eq_none_iff.mp h)]
      rfl

theorem crlfLines_line {line : Bytes} (h : infixIdx CRLF line = none) (rest : Bytes) :
    crlfLines (line ++ CRLF ++ rest) = line :: crlfLines rest := by
  have hsome := crlfLines_of_some (infixIdx_line h rest)
  have hdrop : (line ++ CR :: LF :: rest).drop (line.length + 2) = rest := by
    rw [← List.drop_drop, List.drop_left]
    rfl
  rw [hdrop, List.take_left] at hsome
  rw [List.append_assoc]
  exact hsome

theorem infixIdx_of_not_mem {s : Bytes} (h : CR ∉ s) : infixIdx CRLF s = none := by
  induction s with
  | nil => rfl
  | cons b s ih =>
    simp only [List.mem_cons, not_or] at h
    have hstart : CRLF.isPrefixOf (b :: s) = false := by
      rw [CRLF, List.isPrefixOf_cons_cons, beq_false_of_ne h.1, Bool.false_and]
    rw [infixIdx, hstart, if_neg Bool.false_ne_true, ih h.2]
    rfl

/-- Two texts without a CRLF make one without, unless it stands across the join. -/
theorem infixIdx_append {s t : Bytes} (hs : infixIdx CRLF s = none) (ht : infixIdx CRLF t = none)
    (hjoin : s.getLast? ≠ some CR ∨ t.head? ≠ some LF) : infixIdx CRLF (s ++ t) = none := by
  induction s with
  | nil => exact ht
  | cons b s ih =>
    rw [infixIdx] at hs
    split at hs
    · cases hs
    · rename_i hstart
      have hstart' : ¬ CRLF.isPrefixOf (b :: (s ++ t)) = true := by
        cases s with
        | nil =>
          cases t with
          | nil => simp [CRLF]
          | cons c t =>
            intro hp
            simp only [CRLF, List.nil_append, List.isPrefixOf_cons_cons, Bool.and_eq_true, beq_iff_eq] at hp
            rcases hjoin with hlast | hhead
            · exact hlast (by simp [hp.1])
            · exact hhead (by simp [hp.2.1])
        | cons c s => simpa [CRLF] using hstart
      have hrest : s.getLast? ≠ some CR ∨ t.head? ≠ some LF := by
        refine hjoin.imp_left fun hlast => ?_
        cases s with
        | nil => simp
        | cons c s => rwa [List.getLast?_cons_cons] at hlast
      rw [List.cons_append, infixIdx, if_neg hstart', ih (Option.map_eq_none_iff.mp hs) hrest]
      rfl

/-- Lines, each with its CRLF. -/
def joined (lines : List Bytes) : Bytes := lines.flatMap (· ++ CRLF)

@[simp] theorem joined_cons (line : Bytes) (lines : List Bytes) : joined (line :: lines) = line ++ CRLF ++ joined lines :=
  List.flatMap_cons

@[simp] theorem joined_append (lines lines' : List Bytes) : joined (lines ++ lines') = joined lines ++ joined lines' :=
  List.flatMap_append

theorem crlfLines_joined_append {lines : List Bytes} (h : ∀ line ∈ lines, infixIdx CRLF line = none) (rest : Bytes) :
    crlfLines (joined lines ++ rest) = lines ++ crlfLines rest := by
  induction lines with
  | nil => rfl
  | cons line lines ih =>
    rw [joined_cons, List.append_assoc, crlfLines_line (h line List.mem_cons_self),
      ih fun l hl => h l (List.mem_cons_of_mem _ hl), List.cons_append]

/-- A text that is made of lines is cut into them again. -/
theorem crlfLines_joined {lines : List Bytes} (h : ∀ line ∈ lines, infixIdx CRLF line = none) :
    crlfLines (joined lines) = lines := by
  have hlines := crlfLines_joined_append h []
  rwa [List.append_nil, crlfLines, List.append_nil] at hlines

/-- Every text is its lines and what follows the last CRLF. -/
theorem exists_eq_joined (s : Bytes) :
    ∃ tail, s = joined (crlfLines s) ++ tail ∧ ∀ line ∈ crlfLines s, infixIdx CRLF line = none := by
  induction hn : s.length using Nat.strong_induction_on generalizing s with
  | _ n ih =>
    subst hn
    cases hidx : infixIdx CRLF s with
    | none =>
      rw [crlfLines_of_none hidx]
      exact ⟨s, rfl, nofun⟩
    | some k =>
      have hle := infixIdx_le hidx
      simp only [CRLF, List.length_cons, List.length_nil] at hle
      obtain ⟨tail, htail, hlines⟩ := ih (s.drop (k + 2)).length (by simp; omega) _ rfl
      rw [crlfLines_of_some hidx]
      refine ⟨tail, ?_, ?_⟩
      · calc s = s.take k ++ CRLF ++ s.drop (k + 2) := by
              rw [List.append_assoc]
              exact eq_line_append_of_some hidx
          _ = s.take k ++ CRLF ++ (joined (crlfLines (s.drop (k + 2))) ++ tail) := by rw [← htail]
          _ = _ := by rw [joined_cons, List.append_assoc _ (joined _)]
      · intro line hline
        rcases List.mem_cons.mp hline with rfl | hline
        · exact infixIdx_take hidx
        · exact hlines line hline

/-- What is left of a text that is made of lines begins with the same lines. -/
theorem crlfLines_of_prefix {lines : List Bytes} (h : ∀ line ∈ lines, infixIdx CRLF line = none) {s : Bytes}
    (hs : s <+: joined lines) : crlfLines s <+: lines ∧ (joined (crlfLines s)).length ≤ s.length := by
  obtain ⟨rest, hrest⟩ := hs
  obtain ⟨tail, htail, hclean⟩ := exists_eq_joined s
  constructor
  · refine ⟨crlfLines (tail ++ rest), ?_⟩
    rw [← crlfLines_joined_append hclean, ← List.append_assoc, ← htail, hrest, crlfLines_joined h]
  · have hlength := congrArg List.length htail
    rw [List.length_append] at hlength
    omega

end clib
