import MockUas.Server.Retransmission

open clib
open mock_uas.sip_message
open mock_uas.sip_utils

namespace mock_uas.sip_server

/-- The datagrams that were sent over a transaction and went out. -/
def delivered (run : Run) (transaction : Nat) : List Sent :=
  run.sent.filter fun s => s.transaction == some transaction && s.success

/-- What went out over a transaction: a 100 and a 180 at most, then final responses that are
one and the same. Where that is a 200, nothing but a success was ever tried. -/
structure FinalsStable (run : Run) (transaction : Nat) : Prop where
  order : ∃ provisional finals, delivered run transaction = provisional ++ finals ∧
    provisional.map (·.status_code) <+: [100, 180] ∧ ∀ s ∈ finals, 200 ≤ s.status_code
  same : ∀ s ∈ delivered run transaction, ∀ s' ∈ delivered run transaction, 200 ≤ s.status_code →
    200 ≤ s'.status_code → SameDatagram s s' ∧ s.status_code = s'.status_code
  success : ∀ s ∈ delivered run transaction, s.status_code = 200 →
    ∀ s' ∈ run.sent, s'.transaction = some transaction → s'.status_code ≤ 200

/-- A copy of a request is answered by a datagram that goes out, once a final response went
out over the request's transaction. -/
def ResendsGoOut (run : Run) : Input → Prop
  | .incoming datagram client_addr _ env => ∀ message transaction t opened, Accepted datagram client_addr message →
      transaction_for run.worker message = some transaction →
      run.worker.transactions.heap.cells transaction = some t → t.message = some opened →
      is_different message opened.contents = ok false →
      (∃ s ∈ delivered run transaction, 200 ≤ s.status_code) → env.sendto 0 = true
  | _ => True

instance (run : Run) (input : Input) : Decidable (ResendsGoOut run input) :=
  match input with
  | .incoming datagram client_addr _ env =>
    decidable_of_iff (∀ message ∈ accepted_message datagram client_addr,
      ∀ transaction ∈ transaction_for run.worker message, ∀ t ∈ run.worker.transactions.heap.cells transaction,
        ∀ opened ∈ t.message, is_different message opened.contents = ok false →
          (∃ s ∈ delivered run transaction, 200 ≤ s.status_code) → env.sendto 0 = true) (by
      constructor
      · exact fun h message transaction t opened haccepted hfound hcell hholds =>
          h message (accepted_iff.mp haccepted) transaction hfound t hcell opened hholds
      · exact fun h message haccepted transaction hfound t hcell opened hholds =>
          h message transaction t opened (accepted_iff.mpr haccepted) hfound hcell hholds)
  | .response .. => isTrue trivial
  | .delete .. => isTrue trivial

/-- What a transaction holds for its next copy, against what went out over it. -/
structure Holding (run : Run) (transaction : Nat) (t : sip_transaction_t) (opened : Owned sip_message_t) : Prop where
  same : ∀ s ∈ delivered run transaction, 200 ≤ s.status_code →
    SameDatagram s (datagram_of transaction t opened.contents true) ∧ s.status_code = t.final_response_code
  unanswered : opened.contents.response_length = 0 → ∀ s ∈ run.sent, s.transaction ≠ some transaction
  final : opened.contents.response_length ≠ 0 → 200 ≤ t.final_response_code
  success : t.final_response_code = 200 → ∀ s ∈ run.sent, s.transaction = some transaction → s.status_code ≤ 200

/-- The invariant of one transaction's address. -/
structure Finals (run : Run) (transaction : Nat) : Prop extends FinalsStable run transaction where
  fresh : run.worker.transactions.heap.next ≤ transaction → ∀ s ∈ run.sent, s.transaction ≠ some transaction
  holding : ∀ t opened, run.worker.transactions.heap.cells transaction = some t → t.message = some opened →
    Holding run transaction t opened

private theorem delivered_append (run : Run) {run' : Run} {sends : List Sent} (hsent : run'.sent = run.sent ++ sends)
    (transaction : Nat) : delivered run' transaction = delivered run transaction ++
      sends.filter fun s => s.transaction == some transaction && s.success := by
  rw [delivered, hsent, List.filter_append, delivered]

private theorem mem_delivered {run : Run} {transaction : Nat} {s : Sent} (h : s ∈ delivered run transaction) :
    s ∈ run.sent ∧ s.transaction = some transaction := by
  obtain ⟨hs, hpass⟩ := List.mem_filter.mp h
  simp only [Bool.and_eq_true, beq_iff_eq] at hpass
  exact ⟨hs, hpass.1⟩

/-- A step that sends nothing over a transaction and keeps the response it holds. -/
private theorem Finals.quiet {run run' : Run} {transaction : Nat} {sends : List Sent} (h : Finals run transaction)
    (hsent : run'.sent = run.sent ++ sends) (hother : ∀ s ∈ sends, s.transaction ≠ some transaction)
    (hnext : run.worker.transactions.heap.next ≤ run'.worker.transactions.heap.next)
    (hrecord : ∀ t', run'.worker.transactions.heap.cells transaction = some t' →
      ∃ t, run.worker.transactions.heap.cells transaction = some t ∧ t'.message = t.message ∧
        t'.final_response_code = t.final_response_code) : Finals run' transaction := by
  have hdelivered : delivered run' transaction = delivered run transaction := by
    rw [delivered_append run hsent, List.filter_eq_nil_iff.mpr, List.append_nil]
    intro s hs
    simp [hother s hs]
  have hsends : ∀ s ∈ run'.sent, s.transaction = some transaction → s ∈ run.sent := by
    intro s hs htransaction
    rw [hsent] at hs
    rcases List.mem_append.mp hs with hs | hs
    · exact hs
    · exact absurd htransaction (hother s hs)
  constructor
  · constructor
    · rw [hdelivered]
      exact h.order
    · rw [hdelivered]
      exact h.same
    · rw [hdelivered]
      exact fun s hs hcode s' hs' hover => h.success s hs hcode s' (hsends s' hs' hover) hover
  · exact fun hle s hs hover => h.fresh (hnext.trans hle) s (hsends s hs hover) hover
  · intro t' opened ht' hmessage
    obtain ⟨t, ht, hkeeps, hcode⟩ := hrecord t' ht'
    obtain ⟨hsame, hunanswered, hfinal, hsuccess⟩ := h.holding t opened ht (hkeeps ▸ hmessage)
    constructor
    · rw [hdelivered, hcode]
      intro s hs hs_code
      obtain ⟨⟨hbytes, hbeyond, haddr⟩, hequal⟩ := hsame s hs hs_code
      exact ⟨⟨hbytes, hbeyond, haddr⟩, hequal⟩
    · exact fun hempty s hs hover => hunanswered hempty s (hsends s hs hover) hover
    · rw [hcode]
      exact hfinal
    · rw [hcode]
      exact fun hok s hs hover => hsuccess hok s (hsends s hs hover) hover

/-- A copy of the request makes the response that is held go out again. -/
private theorem Finals.resent {run run' : Run} {transaction : Nat} {t : sip_transaction_t}
    {opened : Owned sip_message_t} (h : Finals run transaction)
    (ht : run.worker.transactions.heap.cells transaction = some t) (hmessage : t.message = some opened)
    (hlength : opened.contents.response_length ≠ 0)
    (hsent : run'.sent = run.sent ++ [datagram_of transaction t opened.contents true])
    (hworker : run'.worker = run.worker) : Finals run' transaction := by
  obtain ⟨d, hd⟩ : ∃ d, d = datagram_of transaction t opened.contents true := ⟨_, rfl⟩
  have hcode : d.status_code = t.final_response_code := by rw [hd]; rfl
  rw [← hd] at hsent
  have hdelivered : delivered run' transaction = delivered run transaction ++ [d] := by
    rw [delivered_append run hsent, hd]
    simp [datagram_of]
  obtain ⟨hsame, -, hfinal, hsuccess⟩ := h.holding t opened ht hmessage
  have hall : ∀ s ∈ delivered run' transaction, 200 ≤ s.status_code →
      SameDatagram s d ∧ s.status_code = t.final_response_code := by
    intro s hs hs_code
    rw [hdelivered] at hs
    rcases List.mem_append.mp hs with hs | hs
    · exact hd ▸ hsame s hs hs_code
    · obtain rfl := List.mem_singleton.mp hs
      exact ⟨⟨rfl, rfl, rfl⟩, hcode⟩
  have hlow : t.final_response_code = 200 → ∀ s ∈ run'.sent, s.transaction = some transaction →
      s.status_code ≤ 200 := by
    intro hok s hs hover
    rw [hsent] at hs
    rcases List.mem_append.mp hs with hs | hs
    · exact hsuccess hok s hs hover
    · obtain rfl := List.mem_singleton.mp hs
      omega
  constructor
  · constructor
    · obtain ⟨provisional, finals, hsplit, hcodes, hfinals⟩ := h.order
      refine ⟨provisional, finals ++ [d], by rw [hdelivered, hsplit, List.append_assoc], hcodes, fun s hs => ?_⟩
      rcases List.mem_append.mp hs with hs | hs
      · exact hfinals s hs
      · obtain rfl := List.mem_singleton.mp hs
        rw [hcode]
        exact hfinal hlength
    · intro s hs s' hs' hs_code hs_code'
      obtain ⟨⟨hbytes, hbeyond, haddr⟩, hequal⟩ := hall s hs hs_code
      obtain ⟨⟨hbytes', hbeyond', haddr'⟩, hequal'⟩ := hall s' hs' hs_code'
      exact ⟨⟨hbytes.trans hbytes'.symm, hbeyond.trans hbeyond'.symm, haddr.trans haddr'.symm⟩,
        hequal.trans hequal'.symm⟩
    · intro s hs hok
      have hequal := (hall s hs (by omega)).2
      exact hlow (hequal ▸ hok)
  · intro hle
    rw [hworker] at hle
    exact absurd (Heap.lt_next_of_cells ht) (Nat.not_lt.mpr hle)
  · intro u held hu hheld
    rw [hworker, ht, Option.some.injEq] at hu
    subst hu
    rw [hmessage, Option.some.injEq] at hheld
    subst hheld
    exact ⟨hd ▸ hall, fun hempty => absurd hempty hlength, hfinal, hlow⟩

/-- A response takes its place behind provisional ones as the first final response. -/
private theorem Finals.answered (run : Run) {run' : Run} {transaction : Nat} {t : sip_transaction_t}
    {opened : Owned sip_message_t} {sends : List Sent} {success : Bool} (hsent : run'.sent = run.sent ++
      (sends ++ [datagram_of transaction t opened.contents success]))
    (ht : run'.worker.transactions.heap.cells transaction = some t) (hmessage : t.message = some opened)
    (hlength : opened.contents.response_length ≠ 0) (hfinal : 200 ≤ t.final_response_code)
    (hcodes : (delivered { run with sent := run.sent ++ sends } transaction).map (·.status_code) <+: [100, 180])
    (hlow : t.final_response_code = 200 → ∀ s ∈ run.sent ++ sends, s.transaction = some transaction →
      s.status_code ≤ 200) : Finals run' transaction := by
  obtain ⟨d, hd⟩ : ∃ d, d = datagram_of transaction t opened.contents success := ⟨_, rfl⟩
  have hcode : d.status_code = t.final_response_code := by rw [hd]; rfl
  obtain ⟨provisional, hprovisional⟩ : ∃ provisional, provisional =
    delivered { run with sent := run.sent ++ sends } transaction := ⟨_, rfl⟩
  rw [← hprovisional] at hcodes
  rw [← hd, ← List.append_assoc] at hsent
  have hdelivered : delivered run' transaction = provisional ++ if success then [d] else [] := by
    rw [delivered_append { run with sent := run.sent ++ sends } hsent, hprovisional, hd]
    cases success <;> simp [datagram_of]
  have hprovisional_code : ∀ s ∈ provisional, s.status_code < 200 := by
    intro s hs
    have hmem : s.status_code ∈ ([100, 180] : List Int) := hcodes.subset (List.mem_map_of_mem hs)
    simp only [List.mem_cons, List.not_mem_nil, or_false] at hmem
    omega
  have hlast : ∀ s ∈ delivered run' transaction, 200 ≤ s.status_code → s = d := by
    intro s hs hs_code
    rw [hdelivered] at hs
    rcases List.mem_append.mp hs with hs | hs
    · have hlow := hprovisional_code s hs
      omega
    · split at hs
      · exact List.mem_singleton.mp hs
      · cases hs
  have hall_low : t.final_response_code = 200 → ∀ s ∈ run'.sent, s.transaction = some transaction →
      s.status_code ≤ 200 := by
    intro hok s hs hover
    rw [hsent] at hs
    rcases List.mem_append.mp hs with hs | hs
    · exact hlow hok s hs hover
    · obtain rfl := List.mem_singleton.mp hs
      omega
  constructor
  · constructor
    · refine ⟨provisional, if success then [d] else [], hdelivered, hcodes, fun s hs => ?_⟩
      split at hs
      · obtain rfl := List.mem_singleton.mp hs
        rw [hcode]
        exact hfinal
      · cases hs
    · intro s hs s' hs' hs_code hs_code'
      rw [hlast s hs hs_code, hlast s' hs' hs_code']
      exact ⟨⟨rfl, rfl, rfl⟩, rfl⟩
    · intro s hs hok
      obtain rfl := hlast s hs (by omega)
      exact hall_low (hcode ▸ hok)
  · exact fun hle => absurd (Heap.lt_next_of_cells ht) (Nat.not_lt.mpr hle)
  · intro u held hu hheld
    rw [ht, Option.some.injEq] at hu
    subst hu
    rw [hmessage, Option.some.injEq] at hheld
    subst hheld
    refine ⟨fun s hs hs_code => ?_, fun hempty => absurd hempty hlength, fun _ => hfinal, hall_low⟩
    rw [hlast s hs hs_code, hd]
    exact ⟨⟨rfl, rfl, rfl⟩, rfl⟩

/-- A request that opens a transaction is answered by a final response or not at all. -/
theorem Fate.concludes {before after : worker_thread_t} {original : Owned sip_message_t} {transaction : Nat}
    {t : sip_transaction_t} {sends : List Sent} (h : Fate before original transaction t after sends) :
    (sends = [] ∧ t.message = some original ∧ t.final_response_code = 0) ∨
      (Answer transaction original t sends ∧ 200 ≤ t.final_response_code) := by
  cases h with
  | reinvite _ _ _ _ _ hholds hcode _ _ hsends => exact .inl ⟨hsends, hholds, hcode⟩
  | acked _ _ _ hholds hcode _ _ hsends => exact .inl ⟨hsends, hholds, hcode⟩
  | refused _ _ _ _ _ hcode hanswer => exact .inr ⟨hanswer, by omega⟩
  | hung_up _ _ _ _ _ _ _ _ hcode hanswer => exact .inr ⟨hanswer, by omega⟩
  | failed_alone _ _ _ _ hcode hanswer => exact .inr ⟨hanswer, by omega⟩
  | failed_in_dialog _ _ _ _ hcode hanswer => exact .inr ⟨hanswer, by omega⟩
  | failed_in_call _ _ _ _ hcode hanswer => exact .inr ⟨hanswer, by omega⟩
  | established _ _ _ _ hcode hanswer => exact .inr ⟨hanswer, by omega⟩

private theorem finals_of_opened {run : Run} {env : Environment} {m' : Machine} {message : Owned sip_message_t}
    {t : sip_transaction_t} {sends : List Sent} {adds : List TimerAdd}
    (h : Opened (run.start env) message m' t sends adds) (hempty : message.contents.response_length = 0)
    (hfresh : ∀ s ∈ run.sent, s.transaction ≠ some run.worker.transactions.heap.next) :
    Finals (run.finish m') run.worker.transactions.heap.next := by
  have hsent : (run.finish m').sent = run.sent ++ sends := congrArg (run.sent ++ ·) h.conversed.sent
  have hcell : (run.finish m').worker.transactions.heap.cells run.worker.transactions.heap.next = some t := by
    rw [Run.finish, h.transactions]
    exact Heap.cells_alloc_self _ _
  have hnone : delivered run run.worker.transactions.heap.next = [] := by
    rw [delivered, List.filter_eq_nil_iff]
    intro s hs
    simp [hfresh s hs]
  rcases h.fate.concludes with ⟨rfl, hholds, hcode⟩ | ⟨hanswer, hfinal⟩
  · rw [List.append_nil] at hsent
    have hsilent : delivered (run.finish m') run.worker.transactions.heap.next = [] := by
      rw [delivered, hsent, ← delivered, hnone]
    constructor
    · constructor
      · exact ⟨[], [], hsilent, List.nil_prefix, List.forall_mem_nil _⟩
      · rw [hsilent]
        exact List.forall_mem_nil _
      · rw [hsilent]
        exact List.forall_mem_nil _
    · exact fun hle => absurd (Heap.lt_next_of_cells hcell) (Nat.not_lt.mpr hle)
    · intro u opened hu hheld
      rw [hcell, Option.some.injEq] at hu
      subst hu
      rw [hholds, Option.some.injEq] at hheld
      subst hheld
      constructor
      · rw [hsilent]
        exact List.forall_mem_nil _
      · rw [hsent]
        exact fun _ => hfresh
      · exact fun hlength => absurd hempty hlength
      · intro hok
        rw [hcode] at hok
        cases hok
  · obtain ⟨contents, provisional, success, hmessage, -, hlength, rfl, hprovisional⟩ := hanswer
    have hdelivered : delivered { run with sent := run.sent ++ provisional } run.worker.transactions.heap.next =
        provisional.filter (·.success) := by
      rw [delivered_append run rfl, hnone, List.nil_append]
      refine List.filter_congr fun s hs => ?_
      have hover : s.transaction = some run.worker.transactions.heap.next := (hprovisional.carried s hs).1
      simp [hover]
    refine Finals.answered run hsent hcell hmessage hlength hfinal ?_ fun _ s hs hover => ?_
    · rw [hdelivered]
      exact hprovisional.codes
    · rcases List.mem_append.mp hs with hs | hs
      · exact absurd hover (hfresh s hs)
      · exact hprovisional.low s hs

/-- A request whose branch is known, at its own transaction. -/
private theorem Known.finals {run : Run} {env : Environment} {m' : Machine} {message opened : Owned sip_message_t}
    {transaction : Nat} {t : sip_transaction_t} (h : Known (run.start env) message transaction t opened m')
    (hfinals : Finals run transaction) (ht : run.worker.transactions.heap.cells transaction = some t)
    (hholds : t.message = some opened)
    (hsends : is_different message.contents opened.contents = ok false →
      (∃ s ∈ delivered run transaction, 200 ≤ s.status_code) → env.sendto 0 = true) :
    Finals (run.finish m') transaction := by
  cases h with
  | dropped _ _ hm =>
    subst hm
    exact hfinals.quiet rfl nofun (Nat.le_refl _) fun u hu => ⟨u, hu, rfl, rfl⟩
  | resent _ hlength _ hm =>
    subst hm
    exact hfinals.resent ht hholds hlength rfl rfl
  | @rewritten output success hsame hfails houtput hconversed =>
    have hsent : (run.finish m').sent = run.sent ++ ((if opened.contents.response_length = 0 then []
        else [datagram_of transaction t opened.contents false]) ++
        [datagram_of transaction (sip_server.answered t opened RESPONSE_CODE_500 output)
          (with_response opened.contents output) success]) := congrArg (run.sent ++ ·) hconversed.sent
    have hcell : (run.finish m').worker.transactions.heap.cells transaction = some
        (sip_server.answered t opened RESPONSE_CODE_500 output) := hconversed.cells ht
    have hpending : ∀ s ∈ delivered run transaction, s.status_code < 200 := by
      intro s hs
      refine Int.lt_of_not_ge fun hge => ?_
      rcases hfails with hempty | hfails
      · obtain ⟨hmem, hover⟩ := mem_delivered hs
        exact (hfinals.holding t opened ht hholds).unanswered hempty s hmem hover
      · rw [show env.sendto 0 = false from hfails] at hsends
        cases hsends hsame ⟨s, hs, hge⟩
    refine Finals.answered run hsent hcell rfl ?_ (by decide : (200 : Int) ≤ RESPONSE_CODE_500) ?_ fun hok => ?_
    · exact fun hempty => houtput (List.length_eq_zero_iff.mp hempty)
    · have hsplit : delivered { run with sent := run.sent ++ if opened.contents.response_length = 0 then []
          else [datagram_of transaction t opened.contents false] } transaction = delivered run transaction := by
        rw [delivered_append run rfl]
        split <;> simp [datagram_of]
      obtain ⟨provisional, finals, horder, hcodes, hfinal⟩ := hfinals.order
      have hnone : finals = [] := by
        refine List.eq_nil_iff_forall_not_mem.mpr fun s hs => ?_
        have hlow := hpending s (horder ▸ List.mem_append_right _ hs)
        have hhigh := hfinal s hs
        omega
      rw [hnone, List.append_nil] at horder
      exact (congrArg (fun sent => List.map (·.status_code) sent <+: [100, 180]) (hsplit.trans horder)).mpr hcodes
    · cases hok
  | acked _ _ _ hconversed =>
    refine hfinals.quiet (congrArg (run.sent ++ ·) hconversed.sent) nofun
      (congrArg (·.heap.next) hconversed.transactions).ge fun u hu => ⟨t, ht, ?_⟩
    rw [show (run.finish m').worker.transactions.heap.cells transaction = _ from hconversed.cells ht,
      Option.some.injEq] at hu
    rw [← hu]
    exact ⟨rfl, rfl⟩

/-- What a deletion leaves of the other transactions. -/
private theorem Deleted.record {m m' : Machine} {event : transaction_delete_t} (h : Deleted m event m')
    {transaction : Nat} {t' : sip_transaction_t} (ht' : m'.worker.transactions.heap.cells transaction = some t') :
    ∃ t, m.worker.transactions.heap.cells transaction = some t ∧ t'.message = t.message ∧
      t'.final_response_code = t.final_response_code := by
  cases h with
  | missing _ hm =>
    subst hm
    exact ⟨t', ht', rfl, rfl⟩
  | removed _ _ hdeletion =>
    obtain ⟨slots, hcells⟩ := hdeletion.removed.cells
    rw [hcells] at ht'
    split at ht'
    · cases ht'
    · obtain ⟨t, ht, rfl⟩ := Option.map_eq_some_iff.mp ht'
      refine ⟨t, ht, ?_⟩
      unfold disband
      split <;> exact ⟨rfl, rfl⟩

/-- Every step keeps the final responses of every transaction stable, as long as the
resends of those that went out go out. -/
private theorem Run.Stepped.finals {run run' : Run} {input : Input} (h : Run.Stepped run input run')
    (hresends : ResendsGoOut run input) {transaction : Nat} (hfinals : ∀ a, Finals run a) :
    Finals run' transaction := by
  have hown := hfinals transaction
  cases h with
  | unhandled =>
    exact hown.quiet (List.append_nil _).symm (List.forall_mem_nil _) (Nat.le_refl _) fun u hu => ⟨u, hu, rfl, rfl⟩
  | response =>
    exact hown.quiet (List.append_nil _).symm (List.forall_mem_nil _) (Nat.le_refl _) fun u hu => ⟨u, hu, rfl, rfl⟩
  | request haccepted hhandled =>
    cases hhandled with
    | unallocated _ _ hpurpose hm =>
      subst hm
      refine hown.quiet rfl (fun s hs => ?_) (Nat.le_refl _) fun u hu => ⟨u, hu, rfl, rfl⟩
      obtain rfl := List.mem_singleton.mp hs
      rw [congrArg (·.transaction) hpurpose]
      exact (Option.some_ne_none _).symm
    | opened _ _ hopened =>
      by_cases hnext : transaction = run.worker.transactions.heap.next
      · subst hnext
        exact finals_of_opened hopened haccepted.request.2.response_length (hown.fresh (Nat.le_refl _))
      · refine hown.quiet (congrArg (run.sent ++ ·) hopened.conversed.sent) (fun s hs => ?_) ?_ fun u hu => ?_
        · rw [hopened.fate.sends_over s hs]
          exact fun he => hnext (Option.some.inj he).symm
        · rw [Run.finish, hopened.transactions]
          exact Nat.le_succ _
        · rw [Run.finish, hopened.transactions] at hu
          exact ⟨u, (if_neg hnext).symm.trans hu, rfl, rfl⟩
    | @known found t opened hfound hcell hholds hknown =>
      by_cases hsame : transaction = found
      · subst hsame
        exact hknown.finals hown hcell hholds (hresends _ _ _ _ haccepted hfound hcell hholds)
      · obtain ⟨sends, hsent, hover⟩ := hknown.sends_over
        refine hown.quiet (congrArg (run.sent ++ ·) hsent) (fun s hs => ?_) hknown.grows.transactions fun u hu => ?_
        · rw [hover s hs]
          exact fun he => hsame (Option.some.inj he).symm
        · exact ⟨u, (hknown.elsewhere hsame).symm.trans hu, rfl, rfl⟩
  | delete hdeleted =>
    refine hown.quiet (congrArg (run.sent ++ ·) hdeleted.sent_eq) (List.forall_mem_nil _) ?_ fun u hu => hdeleted.record hu
    exact (Run.Stepped.delete hdeleted).grows.transactions

private theorem Run.Initial.finals {run : Run} (h : run.Initial) (transaction : Nat) : Finals run transaction := by
  have hsilent : delivered run transaction = [] := by
    rw [delivered, h.sent, List.filter_nil]
  constructor
  · constructor
    · exact ⟨[], [], hsilent, List.nil_prefix, nofun⟩
    · rw [hsilent]
      nofun
    · rw [hsilent]
      nofun
  · rw [h.sent]
    nofun
  · intro t opened ht
    rw [h.transactions] at ht
    cases ht

/-- In a run in which the resends of final responses go out, every transaction keeps to the
final response it has sent. -/
theorem finals_stable_while_resends_go_out (run : Run) (h : program.ReachableWhile ResendsGoOut run)
    (transaction : Nat) : FinalsStable run transaction := by
  have hinvariant : WellFormed run.worker ∧ ∀ a, Finals run a := by
    refine h.invariant (P := fun run => WellFormed run.worker ∧ ∀ a, Finals run a)
      (fun run (hinitial : run.Initial) => ⟨hinitial.wellFormed, hinitial.finals⟩) ?_
    rintro run input run' - hresends hstep ⟨hworker, hfinals⟩
    have hstepped := (step_ends hworker input).of_eq_ok hstep
    exact ⟨hstepped.wellFormed hworker, fun a => hstepped.finals hresends hfinals⟩
  exact (hinvariant.2 transaction).toFinalsStable

/-- A whole call whose resends all go out. -/
private theorem resent_call_run :
    (program.follow_tested ResendsGoOut Run.started first_call).map (fun run : Run =>
      ((delivered run 0).map (·.status_code), (delivered run 1).map (·.status_code))) =
      some ([100, 180, 200, 200], [200, 200]) := by
  decide +kernel

/-- The INVITE and the BYE keep to their 200s, of which the copies get one each. -/
theorem finals_stable_after_call :
    ∃ run : Run, (delivered run 0).map (·.status_code) = [100, 180, 200, 200] ∧
      (delivered run 1).map (·.status_code) = [200, 200] ∧ FinalsStable run 0 ∧ FinalsStable run 1 := by
  obtain ⟨run, hrun, hcodes⟩ := Option.map_eq_some_iff.mp resent_call_run
  simp only [Prod.mk.injEq] at hcodes
  have hstable := finals_stable_while_resends_go_out run (.of_follow_tested Run.started_initial hrun)
  exact ⟨run, hcodes.1, hcodes.2, hstable 0, hstable 1⟩

/-- A socket that takes every datagram of a step but the first. -/
def Environment.reluctant : Environment := { Environment.obliging with sendto := fun n => n != 0 }

private theorem reluctant_copy_run :
    (program.follow Run.started [arrival first_invite .obliging, arrival first_invite .reluctant]).map
      (fun run : Run => (delivered run 0).map (·.status_code)) = some [100, 180, 200, 500] := by
  decide +kernel

/-- A 200 to an INVITE that cannot be sent again is replaced by a 500. -/
theorem success_followed_by_error : ∃ run, program.Reachable run ∧ ¬ FinalsStable run 0 := by
  obtain ⟨run, hrun, hcodes⟩ := Option.map_eq_some_iff.mp reluctant_copy_run
  refine ⟨run, reachable_of_follow hrun, fun hstable => ?_⟩
  have hdelivered : ∀ code ∈ ([100, 180, 200, 500] : List Int), ∃ s ∈ delivered run 0, s.status_code = code := by
    intro code hcode
    rw [← hcodes] at hcode
    exact List.mem_map.mp hcode
  obtain ⟨s, hs, hok⟩ := hdelivered 200 (by decide)
  obtain ⟨s', hs', herror⟩ := hdelivered 500 (by decide)
  have hequal := (hstable.same s hs s' hs' (by omega) (by omega)).2
  omega

end mock_uas.sip_server
