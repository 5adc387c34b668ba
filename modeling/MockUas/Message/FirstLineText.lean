import MockUas.Message.FirstLine

open clib

namespace mock_uas.sip_message

/-- The method that `get_message_method` finds at the start of a text. -/
def method_in (text : Bytes) (method_length : Nat) : sip_method_t :=
  ((METHOD_NAMES.find? fun entry => method_length == entry.1.length && startsWithCase entry.1 text).map Prod.snd).getD
    .UNKNOWN

/-- Where a skip from `i` up to `stop` ends in a text. -/
def skipped_to (test : UInt8 → Bool) (text : Bytes) (i stop : Nat) : Nat :=
  i + (((text.drop i).take (stop - i)).takeWhile test).length

/-- The first occurrence of a byte in a text from `i` on. -/
def next_in (c : UInt8) (text : Bytes) (i : Nat) : Option Nat := ((text.drop i).findIdx? (· == c)).map (i + ·)

/-- `parse_status_line` as a function of the text in the buffer. -/
def status_line_in (message : sip_message_t) (text : Bytes) (line_end : Nat) : sip_msg_error_t × sip_message_t :=
  match next_in SLASH text 0 with
  | none => (.ERROR_MALFORMED_MESSAGE, message)
  | some dash_pos =>
    if dash_pos + 2 ≥ line_end then (.ERROR_MALFORMED_MESSAGE, message)
    else
      let version_major := number (text.drop (dash_pos + 1))
      let version_minor := number (text.drop (dash_pos + 3))
      let message := { message with version_major := version_major, version_minor := version_minor }
      if version_major ≠ 2 ∨ version_minor ≠ 0 then (.ERROR_UNSUPPORTED_SIP_VERSION, message)
      else
        let status_code_start := skipped_to is_space text (dash_pos + 4) line_end
        if status_code_start ≥ line_end then (.ERROR_MALFORMED_MESSAGE, message)
        else
          let message := { message with status_code := number (text.drop status_code_start) }
          let reason_start := skipped_to (fun b => !is_space b) text status_code_start line_end
          if reason_start ≥ line_end then (.ERROR_MALFORMED_MESSAGE, message)
          else
            (.ERROR_NONE, { message with
              reason := some (reason_start + 1)
              reason_length := sizeSub line_end (reason_start + 1) })

/-- What `parse_request_line` does behind the method. -/
def uri_in (message : sip_message_t) (text : Bytes) (line_end space_pos : Nat) : sip_msg_error_t × sip_message_t :=
  let sip_pos := skipped_to is_space text (space_pos + 1) line_end
  if sip_pos ≥ line_end then (.ERROR_MALFORMED_MESSAGE, message)
  else
    match next_in SPACE text sip_pos with
    | none => (.ERROR_MALFORMED_MESSAGE, message)
    | some uri_end =>
      if uri_end ≥ line_end then (.ERROR_MALFORMED_MESSAGE, message)
      else
        let message := { message with uri := some sip_pos, uri_length := sizeSub uri_end sip_pos }
        match next_in SLASH text uri_end with
        | none => (.ERROR_MALFORMED_MESSAGE, message)
        | some dash_pos =>
          if dash_pos + 2 ≥ line_end then (.ERROR_MALFORMED_MESSAGE, message)
          else
            let version_major := number (text.drop (dash_pos + 1))
            let version_minor := number (text.drop (dash_pos + 3))
            let message := { message with version_major := version_major, version_minor := version_minor }
            if version_major ≠ 2 ∨ version_minor ≠ 0 then (.ERROR_UNSUPPORTED_SIP_VERSION, message)
            else (.ERROR_NONE, message)

/-- `parse_request_line` as a function of the text in the buffer, for a message whose method is
not known yet. -/
def request_line_in (message : sip_message_t) (text : Bytes) (line_end : Nat) : sip_msg_error_t × sip_message_t :=
  match next_in SPACE text 0 with
  | none => (.ERROR_MALFORMED_MESSAGE, message)
  | some space_pos =>
    if space_pos ≥ line_end then (.ERROR_MALFORMED_MESSAGE, message)
    else
      let method_length := sizeSub space_pos 0
      let method_type := method_in text method_length
      let message := { message with method := some 0, method_length := method_length, method_type := method_type }
      if method_type = .UNKNOWN then (.ERROR_UNKNOWN_METHOD, message)
      else uri_in message text line_end space_pos

/-- `parse_first_line` as a function of the text in the buffer. -/
def first_line_in (message : sip_message_t) (text : Bytes) : sip_msg_error_t × sip_message_t :=
  match infixIdx CRLF text with
  | none => (.ERROR_MALFORMED_MESSAGE, message)
  | some line_end =>
    if (ascii "SIP").isPrefixOf text then status_line_in { message with is_request := false } text line_end
    else request_line_in { message with is_request := true } text line_end

/-- A buffer holds a text: a pointer into the text sees what is left of it. -/
structure Holding (buffer text : Bytes) : Prop where
  terminated : ∀ {i}, i ≤ text.length → Terminated buffer i
  cstr : ∀ {i}, i ≤ text.length → cstr buffer i = text.drop i

theorem holding_cstr {buffer : Bytes} (h : Terminated buffer 0) : Holding buffer (cstr buffer 0) where
  terminated hle := terminated_of_le h hle
  cstr hle := by
    have hadd := @cstr_add buffer 0 _ hle
    rwa [Nat.zero_add] at hadd

theorem Holding.strchr {buffer text : Bytes} (h : Holding buffer text) {i : Nat} {c : UInt8} (hi : i ≤ text.length)
    (hc : c ≠ NUL) : strchr buffer i c = ok (next_in c text i) := by
  rw [strchr_eq (h.terminated hi) hc, h.cstr hi, next_in]

theorem Holding.atoi {buffer text : Bytes} (h : Holding buffer text) {i : Nat} (hi : i ≤ text.length) :
    atoi buffer i = ok (number (text.drop i)) := by
  rw [atoi_eq_number (h.terminated hi), h.cstr hi]

theorem Holding.skipUntil {buffer text : Bytes} (h : Holding buffer text) {test : UInt8 → Bool} {i stop : Nat}
    (hi : i ≤ text.length) (hstop : stop ≤ text.length) :
    skipUntil test stop buffer i = ok (skipped_to test text i stop) := by
  have hcstr := h.cstr hi
  have hlength : stop ≤ i + (clib.cstr buffer i).length := by
    rw [hcstr, List.length_drop]
    omega
  rw [skipUntil_eq (h.terminated hi) hlength, hcstr, skipped_to]

private theorem method_lookup_eq {buffer text : Bytes} (h : Holding buffer text) (method_length : Nat)
    {names : List (Bytes × sip_method_t)} (hnames : ∀ entry ∈ names, NUL ∉ entry.1.map tolower) :
    method_lookup buffer (some 0) method_length names =
      ok (((names.find? fun entry => method_length == entry.1.length && startsWithCase entry.1 text).map Prod.snd).getD
        .UNKNOWN) := by
  induction names with
  | nil => rfl
  | cons entry names ih =>
    obtain ⟨name, method_type⟩ := entry
    have hrest := ih fun entry hmem => hnames entry (List.mem_cons_of_mem _ hmem)
    have hcompare := strncasecmpEq_eq (h.terminated (Nat.zero_le _)) (hnames (name, method_type) List.mem_cons_self)
    rw [h.cstr (Nat.zero_le _), List.drop_zero] at hcompare
    by_cases hlength : method_length = name.length
    · simp only [method_lookup, deref_some, bind_ok, hcompare, List.find?_cons, hlength, beq_self_eq_true,
        Bool.true_and]
      cases startsWithCase name text with
      | false =>
        rw [hlength] at hrest
        exact hrest
      | true => rfl
    · have hne : (method_length == name.length) = false := by simpa using hlength
      simp only [method_lookup, if_neg hlength, List.find?_cons, hne, Bool.false_and]
      exact hrest

theorem get_message_method_eq {message : sip_message_t} {text : Bytes} (h : Holding message.buffer text)
    (hrequest : message.is_request = true) (hunknown : message.method_type = .UNKNOWN) (method_length : Nat) :
    get_message_method { message with method := some 0, method_length := method_length } =
      ok (method_in text method_length, { message with
        method := some 0
        method_length := method_length
        method_type := method_in text method_length }) := by
  rw [get_message_method, if_neg (by simp [hrequest]), if_neg (by simp [hunknown])]
  simp only [method_lookup_eq h _ method_names_plain, bind_ok]
  rfl

theorem parse_status_line_eq {message : sip_message_t} {text : Bytes} {line_end : Nat}
    (h : Holding message.buffer text) (hend : line_end < text.length) :
    parse_status_line message line_end = ok (status_line_in message text line_end) := by
  rw [parse_status_line, status_line_in, h.strchr (Nat.zero_le _) (by decide)]
  cases hdash : next_in SLASH text 0 with
  | none => rfl
  | some dash_pos =>
    simp only [bind_ok]
    by_cases hshort : dash_pos + 2 ≥ line_end
    · rw [if_pos hshort, if_pos hshort]
    rw [if_neg hshort, if_neg hshort, h.atoi (by omega), h.atoi (by omega)]
    simp only [bind_ok]
    by_cases hversion : number (text.drop (dash_pos + 1)) ≠ 2 ∨ number (text.drop (dash_pos + 3)) ≠ 0
    · rw [if_pos hversion, if_pos hversion]
    rw [if_neg hversion, if_neg hversion, h.skipUntil (by omega) (by omega)]
    simp only [bind_ok]
    generalize skipped_to is_space text (dash_pos + 4) line_end = status_code_start
    by_cases hempty : status_code_start ≥ line_end
    · rw [if_pos hempty, if_pos hempty]
    rw [if_neg hempty, if_neg hempty, h.atoi (by omega), bind_ok, h.skipUntil (by omega) (by omega)]
    simp only [bind_ok]
    generalize skipped_to (fun b => !is_space b) text status_code_start line_end = reason_start
    by_cases hreason : reason_start ≥ line_end
    · rw [if_pos hreason, if_pos hreason]
    · rw [if_neg hreason, if_neg hreason]

theorem parse_request_line_eq {message : sip_message_t} {text : Bytes} {line_end : Nat}
    (h : Holding message.buffer text) (hend : line_end < text.length) (hrequest : message.is_request = true)
    (hunknown : message.method_type = .UNKNOWN) :
    parse_request_line message line_end = ok (request_line_in message text line_end) := by
  rw [parse_request_line, request_line_in, h.strchr (Nat.zero_le _) (by decide)]
  cases hspace : next_in SPACE text 0 with
  | none => rfl
  | some space_pos =>
    simp only [bind_ok]
    by_cases hshort : space_pos ≥ line_end
    · rw [if_pos hshort, if_pos hshort]
    rw [if_neg hshort, if_neg hshort]
    obtain ⟨method_length, hlength⟩ : ∃ method_length, method_length = sizeSub space_pos 0 := ⟨_, rfl⟩
    obtain ⟨after, hafter, hbuffer⟩ : ∃ after : sip_message_t, after = { message with
        method := some 0
        method_length := method_length
        method_type := method_in text method_length } ∧ after.buffer = message.buffer := ⟨_, rfl, rfl⟩
    simp only [← hlength]
    rw [get_message_method_eq h hrequest hunknown method_length, ← hafter]
    rw [← hbuffer] at h
    simp only [bind_ok]
    generalize method_in text method_length = method_type
    by_cases hknown : method_type = .UNKNOWN
    · rw [if_pos hknown, if_pos hknown]
    rw [if_neg hknown, if_neg hknown, uri_in, h.skipUntil (by omega) (by omega)]
    simp only [bind_ok]
    generalize skipped_to is_space text (space_pos + 1) line_end = sip_pos
    by_cases hempty : sip_pos ≥ line_end
    · rw [if_pos hempty, if_pos hempty]
    rw [if_neg hempty, if_neg hempty, h.strchr (by omega) (by decide)]
    cases huri : next_in SPACE text sip_pos with
    | none => rfl
    | some uri_end =>
      simp only [bind_ok]
      by_cases hlong : uri_end ≥ line_end
      · rw [if_pos hlong, if_pos hlong]
      rw [if_neg hlong, if_neg hlong, h.strchr (by omega) (by decide)]
      cases hdash : next_in SLASH text uri_end with
      | none => rfl
      | some dash_pos =>
        simp only [bind_ok]
        by_cases hversionless : dash_pos + 2 ≥ line_end
        · rw [if_pos hversionless, if_pos hversionless]
        rw [if_neg hversionless, if_neg hversionless, h.atoi (by omega), h.atoi (by omega)]
        simp only [bind_ok]
        by_cases hversion : number (text.drop (dash_pos + 1)) ≠ 2 ∨ number (text.drop (dash_pos + 3)) ≠ 0
        · rw [if_pos hversion, if_pos hversion]
        · rw [if_neg hversion, if_neg hversion]

/-- What is read of a first line is read from the text in the buffer. -/
theorem parse_first_line_eq {message : sip_message_t} {text : Bytes} (h : Holding message.buffer text)
    (hunknown : message.method_type = .UNKNOWN) :
    parse_first_line message = ok (first_line_in message text) := by
  have hterm := h.terminated (Nat.zero_le _)
  have hcstr := h.cstr (Nat.zero_le _)
  rw [List.drop_zero] at hcstr
  rw [parse_first_line, first_line_in, strstr_eq hterm (by decide) (by decide), hcstr]
  cases hline : infixIdx CRLF text with
  | none => rfl
  | some line_end =>
    have hle := infixIdx_le hline
    simp only [CRLF, List.length_cons, List.length_nil] at hle
    simp only [Option.map_some, bind_ok, Nat.zero_add, strncmpEq_eq hterm (by decide : NUL ∉ ascii "SIP"), hcstr]
    split
    · exact parse_status_line_eq h (by omega)
    · exact parse_request_line_eq h (by omega) rfl hunknown

/-- A byte found in a text cuts the text in two. -/
theorem cut_of_next_in {c : UInt8} {text before rest : Bytes} {k : Nat} (htext : text = before ++ rest)
    (h : next_in c text before.length = some k) :
    ∃ middle behind, rest = middle ++ c :: behind ∧ c ∉ middle ∧ k = before.length + middle.length := by
  rw [next_in, htext, List.drop_left] at h
  obtain ⟨j, hj, rfl⟩ := Option.map_eq_some_iff.mp h
  obtain ⟨hlt, hat, hfirst⟩ := List.findIdx?_eq_some_iff_getElem.mp hj
  refine ⟨rest.take j, rest.drop (j + 1), ?_, ?_, ?_⟩
  · have hc : rest[j] = c := by simpa using hat
    rw [← hc, ← List.drop_eq_getElem_cons hlt, List.take_append_drop]
  · intro hmem
    obtain ⟨i, hi, hget⟩ := List.getElem_of_mem hmem
    rw [List.length_take] at hi
    rw [List.getElem_take] at hget
    have hne := hfirst i (by omega)
    simp [hget] at hne
  · rw [List.length_take]
    omega

theorem next_in_of_cut {c : UInt8} {before middle behind : Bytes} (hmiddle : c ∉ middle) :
    next_in c (before ++ (middle ++ c :: behind)) before.length = some (before.length + middle.length) := by
  have hskip : ∀ b ∈ middle, (b == c) = false := by
    intro b hb
    have hne : b ≠ c := fun he => hmiddle (he ▸ hb)
    simpa using hne
  have hfirst : (middle ++ c :: behind).findIdx? (· == c) = some middle.length := by
    rw [List.findIdx?_append, List.findIdx?_eq_none_iff.mpr hskip]
    simp [List.findIdx?_cons]
  rw [next_in, List.drop_left, hfirst, Option.map_some]

/-- Where a skip stops short of its bound, it stops at a byte that fails the test. -/
theorem cut_of_skipped_to {test : UInt8 → Bool} {text before rest : Bytes} {stop : Nat} (htext : text = before ++ rest)
    (h : skipped_to test text before.length stop < stop) (hstop : stop ≤ text.length) :
    ∃ run behind, rest = run ++ behind ∧ (∀ b ∈ run, test b = true) ∧ (∃ b, behind.head? = some b ∧ test b = false) ∧
      skipped_to test text before.length stop = before.length + run.length := by
  rw [skipped_to, htext, List.drop_left] at h ⊢
  rw [htext, List.length_append] at hstop
  generalize hwindow : rest.take (stop - before.length) = window at h ⊢
  have hlength : window.length = stop - before.length := by
    rw [← hwindow, List.length_take]
    omega
  have hrest : rest = window ++ rest.drop (stop - before.length) := by
    rw [← hwindow, List.take_append_drop]
  have hne : window.dropWhile test ≠ [] := by
    intro hnil
    have hcut := congrArg List.length (List.takeWhile_append_dropWhile (p := test) (l := window))
    rw [hnil, List.append_nil] at hcut
    omega
  refine ⟨window.takeWhile test, window.dropWhile test ++ rest.drop (stop - before.length), ?_, ?_, ?_, rfl⟩
  · rw [← List.append_assoc, List.takeWhile_append_dropWhile, ← hrest]
  · exact fun b hb => List.mem_takeWhile_imp hb
  · obtain ⟨b, tail, hcons⟩ := List.exists_cons_of_ne_nil hne
    refine ⟨b, by rw [hcons]; rfl, ?_⟩
    have hhead := List.head_dropWhile_not test (l := window) hne
    simpa [hcons] using hhead

theorem skipped_to_of_cut {test : UInt8 → Bool} {before run behind : Bytes} {stop : Nat} (hrun : ∀ b ∈ run, test b = true)
    (hbehind : ∃ b, behind.head? = some b ∧ test b = false) (hstop : before.length + run.length < stop) :
    skipped_to test (before ++ (run ++ behind)) before.length stop = before.length + run.length := by
  obtain ⟨b, hhead, hb⟩ := hbehind
  obtain ⟨tail, rfl⟩ := List.head?_eq_some_iff.mp hhead
  obtain ⟨n, hn⟩ : ∃ n, stop - before.length = run.length + (n + 1) := ⟨stop - before.length - run.length - 1, by omega⟩
  have htake : (run ++ b :: tail).take (run.length + (n + 1)) = run ++ b :: tail.take n := by
    rw [List.take_length_add_append, List.take_succ_cons]
  rw [skipped_to, List.drop_left, hn, htake, takeWhile_append_of_all hrun (by simpa using hb)]

/-- What the parser takes behind the method of a request line: spaces, a URI, a space, and a
slash with numbers behind it, the first one inside the line. -/
structure UriText (rest : Bytes) (room : Nat) (spaces uri front version : Bytes) : Prop where
  cut : rest = spaces ++ (uri ++ SPACE :: (front ++ SLASH :: version))
  blank : ∀ b ∈ spaces, b = SPACE
  uri_plain : uri ≠ [] ∧ SPACE ∉ uri
  front_plain : SLASH ∉ front
  inside : spaces.length + uri.length + 1 + front.length + 2 < room
  major : number version = 2
  minor : number (version.drop 2) = 0

/-- A request line as the parser takes one. -/
structure RequestText (text : Bytes) (line_end : Nat) (method spaces uri front version : Bytes) : Prop where
  cut : text = method ++ SPACE :: (spaces ++ (uri ++ SPACE :: (front ++ SLASH :: version)))
  method_plain : SPACE ∉ method
  short : method.length + 1 ≤ line_end
  known : method_in text method.length ≠ .UNKNOWN
  rest : UriText (spaces ++ (uri ++ SPACE :: (front ++ SLASH :: version))) (line_end - (method.length + 1)) spaces uri
    front version

private theorem not_space_iff {b : UInt8} : is_space b = false ↔ b ≠ SPACE := by simp [is_space]

private theorem uriText_of_uri_in {message : sip_message_t} {text before rest : Bytes} {line_end space_pos : Nat}
    (htext : text = before ++ rest) (hbefore : before.length = space_pos + 1) (hend : line_end ≤ text.length)
    (h : (uri_in message text line_end space_pos).1 = .ERROR_NONE) :
    ∃ spaces uri front version, UriText rest (line_end - (space_pos + 1)) spaces uri front version := by
  rw [uri_in, ← hbefore] at h
  simp only at h
  split at h
  · cases h
  rename_i hempty
  obtain ⟨spaces, rest, rfl, hspaces, ⟨first, hfirst, hplain⟩, hskipped⟩ :=
    cut_of_skipped_to htext (Nat.not_le.mp hempty) hend
  rw [hskipped, ← List.length_append] at h
  split at h
  · cases h
  rename_i uri_end huri
  rw [← List.append_assoc] at htext
  obtain ⟨uri, rest, rfl, hno_space, rfl⟩ := cut_of_next_in htext huri
  split at h
  · cases h
  rw [← List.append_assoc] at htext
  rw [← List.length_append] at h
  split at h
  · cases h
  rename_i dash_pos hdash
  obtain ⟨middle, version, hrest, hno_slash, rfl⟩ := cut_of_next_in htext hdash
  obtain ⟨front, rfl⟩ : ∃ front, middle = SPACE :: front := by
    cases middle with
    | nil => cases (List.cons.inj hrest).1
    | cons b front => exact ⟨front, by rw [(List.cons.inj hrest).1]⟩
  rw [hrest, ← List.append_assoc] at htext
  rw [← List.length_append] at h
  split at h
  · cases h
  rename_i hinside
  have hdrop : text.drop ((before ++ spaces ++ uri ++ SPACE :: front).length + 1) = version := by
    rw [htext, ← List.drop_drop, List.drop_left]
    rfl
  have hdrop' : text.drop ((before ++ spaces ++ uri ++ SPACE :: front).length + 3) = version.drop 2 := by
    rw [← hdrop, List.drop_drop]
  rw [hdrop, hdrop'] at h
  split at h
  · cases h
  rename_i hversion
  rw [not_or, not_not, not_not] at hversion
  refine ⟨spaces, uri, front, version, ?_, ?_, ?_, ?_, ?_, hversion.1, hversion.2⟩
  · rw [hrest, List.cons_append]
  · intro b hb
    simpa [is_space] using hspaces b hb
  · refine ⟨?_, hno_space⟩
    rintro rfl
    obtain rfl := Option.some.inj hfirst
    cases hplain
  · exact fun hmem => hno_slash (List.mem_cons_of_mem _ hmem)
  · simp only [List.length_append, List.length_cons] at hinside hbefore
    omega

private theorem uri_in_of_uriText (message : sip_message_t) {before rest : Bytes} {line_end space_pos : Nat}
    (hbefore : before.length = space_pos + 1) {spaces uri front version : Bytes}
    (h : UriText rest (line_end - (space_pos + 1)) spaces uri front version) :
    uri_in message (before ++ rest) line_end space_pos = (.ERROR_NONE, { message with
      uri := some (space_pos + 1 + spaces.length)
      uri_length := sizeSub (space_pos + 1 + spaces.length + uri.length) (space_pos + 1 + spaces.length)
      version_major := 2
      version_minor := 0 }) := by
  have hinside := h.inside
  have hspaces : ∀ b ∈ spaces, is_space b = true := by
    intro b hb
    rw [h.blank b hb]
    rfl
  have hfirst : ∃ b, (uri ++ SPACE :: (front ++ SLASH :: version)).head? = some b ∧ is_space b = false := by
    obtain ⟨b, tail, hcons⟩ := List.exists_cons_of_ne_nil h.uri_plain.1
    refine ⟨b, by rw [hcons]; rfl, not_space_iff.mpr ?_⟩
    rintro rfl
    exact h.uri_plain.2 (by simp [hcons])
  have hskip : skipped_to is_space (before ++ rest) (space_pos + 1) line_end = space_pos + 1 + spaces.length := by
    rw [h.cut, ← hbefore]
    exact skipped_to_of_cut hspaces hfirst (by omega)
  have huri : next_in SPACE (before ++ rest) (space_pos + 1 + spaces.length) =
      some (space_pos + 1 + spaces.length + uri.length) := by
    have hfound := @next_in_of_cut SPACE (before ++ spaces) uri (front ++ SLASH :: version) h.uri_plain.2
    rwa [List.append_assoc, ← h.cut, List.length_append, hbefore] at hfound
  have hdash : next_in SLASH (before ++ rest) (space_pos + 1 + spaces.length + uri.length) =
      some (space_pos + 1 + spaces.length + uri.length + (front.length + 1)) := by
    have hplain : SLASH ∉ SPACE :: front := by
      rw [List.mem_cons, not_or]
      exact ⟨by decide, h.front_plain⟩
    have hfound := @next_in_of_cut SLASH (before ++ spaces ++ uri) (SPACE :: front) version hplain
    rw [List.cons_append, List.append_assoc, List.append_assoc, ← h.cut] at hfound
    simpa only [List.length_append, hbefore, List.length_cons] using hfound
  have hversion : ∀ n, (before ++ rest).drop (space_pos + 1 + spaces.length + uri.length + (front.length + 1) + (n + 1)) =
      version.drop n := by
    intro n
    have hlength : space_pos + 1 + spaces.length + uri.length + (front.length + 1) + (n + 1) =
        (before ++ (spaces ++ (uri ++ SPACE :: (front ++ [SLASH])))).length + n := by
      simp only [List.length_append, List.length_cons, List.length_nil, hbefore]
      omega
    have htext : before ++ rest = (before ++ (spaces ++ (uri ++ SPACE :: (front ++ [SLASH])))) ++ version := by
      rw [h.cut]
      simp
    rw [hlength, htext, List.drop_append, List.drop_eq_nil_of_le (by omega), List.nil_append, Nat.add_sub_cancel_left]
  have hmajor := hversion 0
  have hminor := hversion 2
  rw [uri_in, hskip, huri]
  simp only [hdash, hmajor, hminor, List.drop_zero, h.major, h.minor]
  rw [if_neg (by omega), if_neg (by omega), if_neg (by omega), if_neg (by simp)]

theorem requestText_of_request_line_in {message : sip_message_t} {text : Bytes} {line_end : Nat}
    (hend : line_end ≤ text.length) (hbound : text.length < sizeMax)
    (h : (request_line_in message text line_end).1 = .ERROR_NONE) :
    ∃ method spaces uri front version, RequestText text line_end method spaces uri front version := by
  rw [request_line_in] at h
  cases hspace : next_in SPACE text 0 with
  | none => simp [hspace] at h
  | some space_pos =>
    obtain ⟨method, rest, htext, hmethod, hlength⟩ := @cut_of_next_in SPACE text [] text space_pos rfl hspace
    rw [List.length_nil, Nat.zero_add] at hlength
    simp only [hspace] at h
    split at h
    · cases h
    rename_i hshort
    rw [sizeSub_eq (by omega) (by omega), Nat.sub_zero] at h
    split at h
    · cases h
    rename_i hknown
    have hbefore : (method ++ [SPACE]).length = space_pos + 1 := by
      rw [List.length_append, List.length_singleton, hlength]
    have hcut : text = (method ++ [SPACE]) ++ rest := by
      rw [htext]
      simp
    obtain ⟨spaces, uri, front, version, huri⟩ := uriText_of_uri_in hcut hbefore hend h
    rw [hlength] at huri hknown hshort
    obtain rfl := huri.cut
    exact ⟨method, spaces, uri, front, version, htext, hmethod, by omega, hknown, huri⟩

theorem request_line_in_of_requestText (message : sip_message_t) {text : Bytes} {line_end : Nat}
    (hbound : text.length < sizeMax) {method spaces uri front version : Bytes}
    (h : RequestText text line_end method spaces uri front version) :
    request_line_in message text line_end = (.ERROR_NONE, { message with
      method := some 0
      method_length := method.length
      method_type := method_in text method.length
      uri := some (method.length + 1 + spaces.length)
      uri_length := uri.length
      version_major := 2
      version_minor := 0 }) := by
  have hlength := congrArg List.length h.cut
  simp only [List.length_append, List.length_cons] at hlength
  have hspace : next_in SPACE text 0 = some method.length := by
    have hfound := @next_in_of_cut SPACE [] method
      (spaces ++ (uri ++ SPACE :: (front ++ SLASH :: version))) h.method_plain
    rwa [List.nil_append, ← h.cut, List.length_nil, Nat.zero_add] at hfound
  have hbefore : (method ++ [SPACE]).length = method.length + 1 := by
    rw [List.length_append, List.length_singleton]
  have hcut : (method ++ [SPACE]) ++ (spaces ++ (uri ++ SPACE :: (front ++ SLASH :: version))) = text := by
    rw [h.cut]
    simp
  have hshort := h.short
  have huri := fun after => uri_in_of_uriText after hbefore h.rest
  rw [hcut] at huri
  rw [request_line_in, hspace]
  simp only [sizeSub_eq (Nat.zero_le method.length) (show method.length < sizeMax by omega), Nat.sub_zero]
  rw [if_neg (by omega), if_neg h.known, huri, sizeSub_eq (by omega) (by omega), Nat.add_sub_cancel_left]

/-- A status line as the parser takes one: the first slash inside the line with numbers behind
it, spaces, something for a code and a space. What follows the space starts the reason. -/
structure StatusText (text : Bytes) (line_end : Nat) (front version spaces code reason : Bytes) : Prop where
  cut : text = front ++ SLASH :: version
  front_plain : SLASH ∉ front
  inside : front.length + 2 < line_end
  major : number version = 2
  minor : number (version.drop 2) = 0
  code_cut : version.drop 3 = spaces ++ (code ++ SPACE :: reason)
  blank : ∀ b ∈ spaces, b = SPACE
  code_plain : code ≠ [] ∧ SPACE ∉ code
  code_inside : front.length + 4 + spaces.length + code.length < line_end

private theorem drop_version {text front version : Bytes} (htext : text = front ++ SLASH :: version) (n : Nat) :
    text.drop (front.length + (n + 1)) = version.drop n := by
  rw [htext, List.drop_append, List.drop_eq_nil_of_le (by omega), List.nil_append, Nat.add_sub_cancel_left,
    List.drop_succ_cons]

theorem statusText_of_status_line_in {message : sip_message_t} {text : Bytes} {line_end : Nat}
    (hend : line_end ≤ text.length) (h : (status_line_in message text line_end).1 = .ERROR_NONE) :
    ∃ front version spaces code reason, StatusText text line_end front version spaces code reason := by
  rw [status_line_in] at h
  split at h
  · cases h
  rename_i dash_pos hdash
  obtain ⟨front, version, htext, hfront, hlength⟩ := @cut_of_next_in SLASH text [] text dash_pos rfl hdash
  rw [List.length_nil, Nat.zero_add] at hlength
  subst hlength
  split at h
  · cases h
  rename_i hinside
  have hmajor := drop_version htext 0
  have hminor := drop_version htext 2
  rw [hmajor, hminor, List.drop_zero] at h
  simp only at h
  split at h
  · cases h
  rename_i hversion
  rw [not_or, not_not, not_not] at hversion
  split at h
  · cases h
  rename_i hempty
  have hbefore : (front ++ SLASH :: version.take 3).length = front.length + 4 := by
    have hstart : front.length + 4 ≤ skipped_to is_space text (front.length + 4) line_end := Nat.le_add_right _ _
    rw [htext, List.length_append, List.length_cons] at hend
    rw [List.length_append, List.length_cons, List.length_take]
    omega
  have hcut : text = (front ++ SLASH :: version.take 3) ++ version.drop 3 := by
    rw [List.append_assoc, List.cons_append, List.take_append_drop, htext]
  rw [← hbefore] at h hempty
  obtain ⟨spaces, rest, hrest, hspaces, ⟨first, hfirst, hplain⟩, hskipped⟩ :=
    cut_of_skipped_to hcut (Nat.not_le.mp hempty) hend
  rw [hskipped, ← List.length_append] at h
  rw [hrest, ← List.append_assoc] at hcut
  split at h
  · cases h
  rename_i hreason
  obtain ⟨code, behind, rfl, hcode, ⟨space, hspace, hstop⟩, hcode_end⟩ :=
    cut_of_skipped_to hcut (Nat.not_le.mp hreason) hend
  obtain ⟨reason, rfl⟩ := List.head?_eq_some_iff.mp hspace
  obtain rfl : space = SPACE := by simpa [is_space] using hstop
  rw [hcode_end, List.length_append, hbefore] at hreason
  refine ⟨front, version, spaces, code, reason, htext, hfront, by omega, hversion.1, hversion.2, hrest, ?_, ⟨?_, ?_⟩,
    by omega⟩
  · intro b hb
    simpa [is_space] using hspaces b hb
  · rintro rfl
    obtain rfl := Option.some.inj hfirst
    cases hplain
  · intro hmem
    have hnot := hcode SPACE hmem
    cases hnot

theorem status_line_in_of_statusText (message : sip_message_t) {text : Bytes} {line_end : Nat}
    {front version spaces code reason : Bytes} (h : StatusText text line_end front version spaces code reason) :
    status_line_in message text line_end = (.ERROR_NONE, { message with
      version_major := 2
      version_minor := 0
      status_code := number (code ++ SPACE :: reason)
      reason := some (front.length + 4 + spaces.length + code.length + 1)
      reason_length := sizeSub line_end (front.length + 4 + spaces.length + code.length + 1) }) := by
  have hinside := h.inside
  have hcode_inside := h.code_inside
  have hcode_length := congrArg List.length h.code_cut
  simp only [List.length_append, List.length_cons, List.length_drop] at hcode_length
  have hdash : next_in SLASH text 0 = some front.length := by
    have hfound := @next_in_of_cut SLASH [] front version h.front_plain
    rwa [List.nil_append, ← h.cut, List.length_nil, Nat.zero_add] at hfound
  have hmajor := drop_version h.cut 0
  have hminor := drop_version h.cut 2
  have hbefore : (front ++ SLASH :: version.take 3).length = front.length + 4 := by
    rw [List.length_append, List.length_cons, List.length_take]
    omega
  have hcut : text = (front ++ SLASH :: version.take 3) ++ (spaces ++ (code ++ SPACE :: reason)) := by
    rw [← h.code_cut, List.append_assoc, List.cons_append, List.take_append_drop, h.cut]
  have hspaces : ∀ b ∈ spaces, is_space b = true := by
    intro b hb
    rw [h.blank b hb]
    rfl
  have hcode : ∀ b ∈ code, (!is_space b) = true := by
    intro b hb
    have hne : b ≠ SPACE := fun he => h.code_plain.2 (he ▸ hb)
    rw [not_space_iff.mpr hne]
    rfl
  have hfirst : ∃ b, (code ++ SPACE :: reason).head? = some b ∧ is_space b = false := by
    obtain ⟨b, tail, hcons⟩ := List.exists_cons_of_ne_nil h.code_plain.1
    refine ⟨b, by rw [hcons]; rfl, not_space_iff.mpr ?_⟩
    rintro rfl
    exact h.code_plain.2 (by simp [hcons])
  have hstart : skipped_to is_space text (front.length + 4) line_end = front.length + 4 + spaces.length := by
    rw [hcut, ← hbefore]
    exact skipped_to_of_cut hspaces hfirst (by omega)
  have hspaces_before : (front ++ SLASH :: version.take 3 ++ spaces).length = front.length + 4 + spaces.length := by
    rw [List.length_append, hbefore]
  have hcode_end : skipped_to (fun b => !is_space b) text (front.length + 4 + spaces.length) line_end =
      front.length + 4 + spaces.length + code.length := by
    rw [hcut, ← hspaces_before, ← List.append_assoc]
    exact skipped_to_of_cut hcode ⟨SPACE, rfl, rfl⟩ (by omega)
  have hcode_text : text.drop (front.length + 4 + spaces.length) = code ++ SPACE :: reason := by
    rw [hcut, ← hspaces_before, ← List.append_assoc, List.drop_left]
  rw [status_line_in, hdash]
  simp only [hmajor, hminor, List.drop_zero, h.major, h.minor, hstart, hcode_text, hcode_end]
  rw [if_neg (by omega), if_neg (by simp), if_neg (by omega), if_neg (by omega)]

end mock_uas.sip_message
