import MockUas.Server.Links
import MockUas.System.Selection
import MockUas.System.Workers

open clib
open mock_uas.sip_message
open mock_uas.sip_utils
open mock_uas.sip_server
open mock_uas.message_queue
open mock_uas.timer_manager

namespace mock_uas.main

/-- A request that the parser is led out of the buffer by. -/
def Misread (message : sip_message_t) : Prop := RequestLineAccepted message ∧ ¬ ReadsFrom message.buffer

/-- What a step faults at: `main` chooses a worker by a Call-ID of which the bytes from 128 on are
not outweighed, or a worker parses a request with a parameter that is searched for behind the
buffer. A response that is longer than its array is sent all the same, with what is behind the
array (`Sent.beyond`), and does not count here. -/
inductive FaultCause (system : System) : System.Action → Prop where
  | dispatch {reception : Reception} {datagram : Datagram} {client_addr : sockaddr_in} {call_id : Bytes}
    (hreads : Reads reception) (hrecvfrom : reception.recvfrom = some (datagram, client_addr))
    (hcall_id : call_id_of datagram = some call_id) (hnegative : ¬ Outweighed call_id) :
    FaultCause system (.receive reception)
  | parse {k : Fin MAX_THREADS} {env : Environment} {message : Owned sip_message_t}
    (hcurrent : (system.threads k).current = some (.PACKET_TYPE_INCOMING_SIP message))
    (hmisread : Misread message.contents) : FaultCause system (.work k env)

/-- The parser on a message that the dispatcher handed over: it faults on a misread one, and
accepts requests only. -/
private theorem parse_message_ends {datagram : Datagram} {client_addr : sockaddr_in} {message : sip_message_t}
    (hgiven : dispatched datagram client_addr = ok (some message)) :
    (∀ fault, parse_message message = error fault → fault = .outOfBounds ∧ Misread message) ∧
      ∀ err parsed, parse_message message = ok (err, parsed) →
        ¬ Misread message ∧ (err = .ERROR_NONE → parsed.is_request = true) := by
  have hhanded : { message with call_id := none, call_id_length := 0 } = received datagram client_addr := by
    rw [dispatched_eq, Except.ok.injEq] at hgiven
    obtain ⟨call_id, -, hcontents⟩ := Option.map_eq_some_iff.mp hgiven
    rw [← hcontents]
    rfl
  have hbuffer : message.buffer = buffered datagram := congrArg (·.buffer) hhanded
  have houtcome := parse_message_outcome message hhanded
  rw [Misread, hbuffer]
  constructor
  · intro fault hparse
    rw [hparse] at houtcome
    exact ⟨houtcome.1, Classical.not_imp.mp houtcome.2⟩
  · intro err parsed hparse
    rw [hparse] at houtcome
    obtain ⟨hreads, -, hfinal⟩ := houtcome
    refine ⟨fun hmisread => hmisread.2 (hreads hmisread.1), fun herr => ?_⟩
    obtain ⟨line, -, -, hrequest, hframe⟩ := (hfinal herr).line
    exact (congrArg (·.is_request) hframe).trans hrequest

/-- A worker faults on misread requests only, as long as no transaction points at a dialog that was
freed. -/
theorem process_packet_fault_iff {m : Machine} (hworker : WellFormed m.worker) (hdangling : ¬ Dangling m.worker)
    (packet : Packet) (hgiven : ∀ message, packet = .PACKET_TYPE_INCOMING_SIP message →
      ∃ datagram client_addr, dispatched datagram client_addr = ok (some message.contents)) (fault : Fault) :
    process_packet m packet = error fault ↔
      fault = .outOfBounds ∧ ∃ message, packet = .PACKET_TYPE_INCOMING_SIP message ∧ Misread message.contents := by
  cases packet with
  | PACKET_TYPE_DELETE_TRANSACTION event =>
    constructor
    · intro hfault
      exact absurd ((delete_transaction_spec hworker event).of_eq_error hfault) hdangling
    · rintro ⟨-, message, hmessage, -⟩
      cases hmessage
  | PACKET_TYPE_INCOMING_SIP message =>
    obtain ⟨datagram, client_addr, hdispatched⟩ := hgiven message rfl
    obtain ⟨hfaults, haccepts⟩ := parse_message_ends hdispatched
    have hsame : (∃ other, Packet.PACKET_TYPE_INCOMING_SIP message = .PACKET_TYPE_INCOMING_SIP other ∧
        Misread other.contents) ↔ Misread message.contents := by
      constructor
      · rintro ⟨other, hother, hmisread⟩
        cases hother
        exact hmisread
      · exact fun hmisread => ⟨message, rfl, hmisread⟩
    rw [hsame, process_packet]
    cases hparse : parse_message message.contents with
    | error other =>
      obtain ⟨rfl, hmisread⟩ := hfaults other hparse
      rw [bind_error, Except.error.injEq]
      exact ⟨fun heq => ⟨heq.symm, hmisread⟩, fun hfault => hfault.1.symm⟩
    | ok result =>
      obtain ⟨err, parsed⟩ := result
      obtain ⟨hread, hrequest⟩ := haccepts err parsed hparse
      refine ⟨fun hfault => ?_, fun hfault => absurd hfault.2 hread⟩
      simp only [bind_ok] at hfault
      split at hfault
      · cases hfault
      · rename_i herr
        have herr : err = .ERROR_NONE := not_not.mp herr
        subst herr
        rw [if_pos (hrequest rfl)] at hfault
        have haccepted : Accepted datagram client_addr parsed := ⟨message.contents, hdispatched, hparse, hrequest rfl⟩
        have hspec := process_sip_request_spec m ⟨message.address, parsed⟩ hworker haccepted.request.1
        exact absurd (hspec.of_eq_error hfault) hdangling

private theorem worker_at_fault {i : Int} {fault : Fault} (h : worker_at i = error fault) : fault = .outOfBounds := by
  rw [worker_at] at h
  split at h
  · cases h
  · exact (Except.error.inj h).symm

/-- A Call-ID that is not outweighed leads to no worker. -/
private theorem thread_for_eq_ok {call_id : Bytes} {k : Fin MAX_THREADS} (h : thread_for call_id = ok k) :
    Outweighed call_id := by
  rw [thread_for, worker_at] at h
  split at h
  · rename_i hindex
    exact (outweighed_iff call_id).mpr hindex.1
  · cases h

private theorem thread_for_eq_error {call_id : Bytes} {fault : Fault} (h : thread_for call_id = error fault) :
    fault = .outOfBounds ∧ ¬ Outweighed call_id := by
  refine ⟨worker_at_fault h, fun houtweighed => ?_⟩
  rw [thread_for, worker_at] at h
  split at h
  · cases h
  · rename_i hindex
    exact hindex ⟨(outweighed_iff call_id).mp houtweighed, Int.tmod_lt_of_pos _ (by decide)⟩

/-- Where `main` faults, its datagram has a Call-ID that leads to no worker. -/
private theorem receive_faults {system : System} (hcoherent : Coherent system) {reception : Reception} {fault : Fault}
    (hfault : system.handle_new_message reception = error fault) :
    fault = .outOfBounds ∧ FaultCause system (.receive reception) := by
  have hreads : Reads reception := by
    by_contra hnothing
    cases (handle_new_message_of_not_reads system hnothing).symm.trans hfault
  obtain ⟨datagram, client_addr, call_id, cause, hrecvfrom, hcall_id, hthread⟩ :=
    (handle_new_message_ends hcoherent reception).of_eq_error hfault
  obtain ⟨rfl, hnegative⟩ := thread_for_eq_error hthread
  refine ⟨?_, .dispatch hreads hrecvfrom hcall_id hnegative⟩
  have hne : datagram.bytes.length ≠ 0 := by
    intro hempty
    cases (call_id_of_empty hempty).symm.trans hcall_id
  rw [handle_datagram_eq system datagram client_addr hne (Int.not_lt.mpr hreads.1) hreads.2.1 hreads.2.2 hrecvfrom]
    at hfault
  obtain ⟨found, hvalue, hfound⟩ := Option.map_eq_some_iff.mp hcall_id
  subst hfound
  obtain ⟨-, hend, -⟩ := header_value_bounds hvalue
  have hstart := length_cstr_lt ((buffered_spec datagram).terminated 0 (buffered_spec datagram).nonempty)
  have hinside : found.1 + found.2 ≤ (buffered datagram).length := by omega
  simp only [hvalue] at hfault
  have hdispatch := dispatch_fault { system with messages := system.messages + 1 }
    ⟨system.messages, { received datagram client_addr with
      call_id := some found.1, call_id_length := found.2 }⟩ hinside hthread
  exact (Except.error.inj (hdispatch.symm.trans hfault)).symm

private theorem receive_faults_of {system : System} (hcoherent : Coherent system) {reception : Reception}
    (hcause : FaultCause system (.receive reception)) : ∃ fault, system.handle_new_message reception = error fault := by
  cases hcause with
  | dispatch hreads hrecvfrom hcall_id hnegative =>
    cases hrun : system.handle_new_message reception with
    | error fault => exact ⟨fault, rfl⟩
    | ok system' =>
      have hentered : ∀ message arrival, ¬ Entered system reception message arrival := by
        intro message arrival hentered
        obtain ⟨other, other_addr, hother, -, hsame⟩ := hentered.given
        obtain ⟨rfl, rfl⟩ := Prod.mk.inj (Option.some.inj (hrecvfrom.symm.trans hother))
        obtain rfl := Option.some.inj (hcall_id.symm.trans hsame)
        exact hnegative (thread_for_eq_ok hentered.thread)
      cases (handle_new_message_ends hcoherent reception).of_eq_ok hrun with
      | idle hnothing => exact absurd hreads hnothing
      | discarded _ hnone => cases (hnone _ _ hrecvfrom).symm.trans hcall_id
      | refused hrefused => exact absurd hrefused (hentered _ _)
      | dispatched hdispatched => exact absurd hdispatched (hentered _ _)

private theorem work_fault_iff {system : System} (hcoherent : Coherent system) {k : Fin MAX_THREADS} {env : Environment}
    (hdangling : ¬ Dangling (system.threads k).run.worker) (hcurrent : (system.threads k).current ≠ none) (fault : Fault) :
    system.work k env = error fault ↔ fault = .outOfBounds ∧ FaultCause system (.work k env) := by
  obtain ⟨packet, hpacket⟩ := Option.ne_none_iff_exists'.mp hcurrent
  have hthread := hcoherent.threads k
  have hgiven : ∀ message, packet = .PACKET_TYPE_INCOMING_SIP message →
      ∃ datagram client_addr, dispatched datagram client_addr = ok (some message.contents) := by
    rintro message rfl
    exact hthread.given message (by simp [carried, hpacket])
  have hiff := process_packet_fault_iff (m := (system.threads k).run.start env) hthread.wellFormed hdangling packet
    hgiven fault
  have hwork : system.work k env = error fault ↔
      process_packet ((system.threads k).run.start env) packet = error fault := by
    have hderef : deref (system.threads k).current = ok packet := deref_eq_ok_iff.mpr hpacket
    simp only [System.work, hderef, bind_ok]
    cases process_packet ((system.threads k).run.start env) packet with
    | error other => rw [bind_error, Except.error.injEq, Except.error.injEq]
    | ok m => exact ⟨fun h => (by cases h), fun h => (by cases h)⟩
  rw [hwork, hiff]
  refine and_congr_right fun _ => ⟨?_, fun hcause => ?_⟩
  · rintro ⟨message, rfl, hmisread⟩
    exact .parse hpacket hmisread
  · cases hcause with
    | parse hmessage hmisread => exact ⟨_, Option.some.inj (hpacket.symm.trans hmessage), hmisread⟩

/-- As long as no dialog runs out of slots, a step of the server faults exactly where it chooses a
worker by a negative index or parses a misread request, and then out of bounds. No step reads a
freed record or a null pointer. -/
theorem step_faults_iff (system : System) (action : System.Action)
    (h : program.ReachableWhile (Turns HasRoom) system) (henabled : program.enabled system action) (fault : Fault) :
    system.step action = error fault ↔ fault = .outOfBounds ∧ FaultCause system action := by
  obtain ⟨start, hinitial, hpath⟩ := h
  obtain ⟨actions, htrace⟩ := hpath.trace
  have hserved := all_served hinitial htrace
  have hcoherent := hserved.coherent
  cases action with
  | receive reception =>
    refine ⟨receive_faults hcoherent, fun hcause => ?_⟩
    obtain ⟨other, hother⟩ := receive_faults_of hcoherent hcause.2
    rw [hcause.1, ← (receive_faults hcoherent hother).1]
    exact hother
  | fire timer answers =>
    obtain ⟨system', hfire, -⟩ := timer_expired_spec hcoherent henabled answers
    constructor
    · intro hfault
      cases hfire.symm.trans hfault
    · rintro ⟨-, hcause⟩
      cases hcause
  | take k =>
    obtain ⟨system', htake, -⟩ := take_spec hcoherent henabled.1 henabled.2
    constructor
    · intro hfault
      cases htake.symm.trans hfault
    · rintro ⟨-, hcause⟩
      cases hcause
  | work k env =>
    obtain ⟨inputs, hworker⟩ := hserved.served k
    obtain ⟨-, hlinks⟩ := ReachableWhile.links ⟨_, hinitial.run k, hworker.trace.path⟩
    exact work_fault_iff hcoherent hlinks.not_dangling henabled.1 fault

/-- A Call-ID of one byte above 127 leads `main` behind `worker_threads`. -/
theorem high_byte_faults :
    started.step (datagram_in high_byte) = error .outOfBounds ∧ FaultCause started (datagram_in high_byte) := by
  have hcall_id : call_id_of high_byte = some [255] := by decide +kernel
  have hcause : FaultCause started (datagram_in high_byte) := by
    refine .dispatch ⟨by decide, rfl, rfl⟩ rfl hcall_id ?_
    rw [outweighed_iff]
    decide
  refine ⟨?_, hcause⟩
  exact (step_faults_iff started (datagram_in high_byte) ⟨started, started_initial, .refl _⟩ trivial .outOfBounds).mpr
    ⟨rfl, hcause⟩

end mock_uas.main
