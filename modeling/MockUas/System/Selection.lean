import Mathlib.Algebra.BigOperators.Group.List.Basic
import MockUas.System.Advance

open clib
open mock_uas.sip_message

namespace mock_uas.main

/-- The sum `string_to_int_hash` has reached after some bytes. -/
def hash_of (bytes : Bytes) : Int := bytes.foldl (fun hash b => hash + signed_char b) 0

/-- The choice of a worker goes well: the sum stays in the range of an `int` from the first
byte to the last, and the index is one of `worker_threads`. -/
structure Selects (call_id : Bytes) (hash : Int) : Prop where
  fits : ∀ n, -2 ^ 31 ≤ hash_of (call_id.take n) ∧ hash_of (call_id.take n) < 2 ^ 31
  index : 0 ≤ hash.tmod MAX_THREADS ∧ hash.tmod MAX_THREADS < MAX_THREADS
  worker : ∃ k, worker_at (hash.tmod MAX_THREADS) = ok k ∧ hash.tmod MAX_THREADS = k.val

/-- The bytes that are negative as a `char` weigh less than the others together, or the sum of
all is a multiple of the number of workers. -/
def Outweighed (call_id : Bytes) : Prop :=
  256 * call_id.countP (128 ≤ ·) ≤ (call_id.map UInt8.toNat).sum ∨
    (MAX_THREADS : Int) ∣ (call_id.map UInt8.toNat).sum - 256 * call_id.countP (128 ≤ ·)

private theorem signed_char_eq (b : UInt8) :
    signed_char b = b.toNat - 256 * (if decide (128 ≤ b) then 1 else 0 : Nat) := by
  rw [signed_char]
  by_cases hlow : b < 128
  · rw [if_pos hlow, if_neg (by simpa using hlow)]
    omega
  · rw [if_neg hlow, if_pos (by simpa using hlow)]
    omega

private theorem foldl_signed_char (bytes : Bytes) (hash : Int) :
    bytes.foldl (fun hash b => hash + signed_char b) hash =
      hash + ((bytes.map UInt8.toNat).sum - 256 * bytes.countP (128 ≤ ·)) := by
  induction bytes generalizing hash with
  | nil => simp
  | cons b bytes ih =>
    rw [List.foldl_cons, ih, List.map_cons, List.sum_cons, List.countP_cons, signed_char_eq]
    push_cast
    omega

theorem hash_of_eq (bytes : Bytes) :
    hash_of bytes = (bytes.map UInt8.toNat).sum - 256 * bytes.countP (128 ≤ ·) := by
  rw [hash_of, foldl_signed_char, Int.zero_add]

private theorem sum_bytes_le (bytes : Bytes) : (bytes.map UInt8.toNat).sum ≤ 255 * bytes.length := by
  induction bytes with
  | nil => simp
  | cons b bytes ih =>
    have hb := b.toNat_lt
    rw [List.map_cons, List.sum_cons, List.length_cons]
    omega

/-- No string that fits in a message takes the sum out of the range of an `int`. -/
theorem hash_of_bounds {bytes : Bytes} (hlength : bytes.length ≤ BUFFER_SIZE) :
    -2 ^ 31 ≤ hash_of bytes ∧ hash_of bytes < 2 ^ 31 := by
  have hsum := sum_bytes_le bytes
  have hcount := List.countP_le_length (p := fun b : UInt8 => decide (128 ≤ b)) (l := bytes)
  rw [hash_of_eq]
  rw [BUFFER_SIZE] at hlength
  omega

/-- C's remainder is negative exactly for a negative number that is no multiple. -/
private theorem tmod_nonneg_iff (hash : Int) {n : Int} : 0 ≤ hash.tmod n ↔ 0 ≤ hash ∨ n ∣ hash := by
  constructor
  · intro hindex
    by_cases hdvd : n ∣ hash
    · exact .inr hdvd
    · have hsign := Int.sign_tmod hash n
      rw [if_neg hdvd] at hsign
      rw [← Int.sign_nonneg_iff, hsign, Int.sign_nonneg_iff] at hindex
      exact .inl hindex
  · rintro (hhash | hdvd)
    · exact Int.tmod_nonneg n hhash
    · exact Int.le_of_eq (Int.tmod_eq_zero_of_dvd hdvd).symm

theorem outweighed_iff (call_id : Bytes) : Outweighed call_id ↔ 0 ≤ (hash_of call_id).tmod MAX_THREADS := by
  rw [tmod_nonneg_iff, hash_of_eq, Outweighed]
  exact or_congr (by omega) Iff.rfl

theorem selects_iff {call_id : Bytes} (hlength : call_id.length ≤ BUFFER_SIZE) :
    Selects call_id (hash_of call_id) ↔ Outweighed call_id := by
  rw [outweighed_iff]
  constructor
  · exact fun hselects => hselects.index.1
  · intro hindex
    have hlast := Int.tmod_lt_of_pos (hash_of call_id) (show (0 : Int) < MAX_THREADS by decide)
    constructor
    · intro n
      apply hash_of_bounds
      exact (List.length_take_le' n call_id).trans hlength
    · exact ⟨hindex, hlast⟩
    · refine ⟨⟨((hash_of call_id).tmod MAX_THREADS).toNat, by omega⟩, ?_, (Int.toNat_of_nonneg hindex).symm⟩
      rw [worker_at, dif_pos ⟨hindex, hlast⟩]

/-- Where the Call-ID of a datagram lies. -/
private theorem call_id_inside {datagram : Datagram} {client_addr : sockaddr_in} {message : sip_message_t}
    {call_id length : Nat}
    (hfound : get_message_call_id (received datagram client_addr) = ok (some (call_id, length), message)) :
    message.buffer = buffered datagram ∧ call_id + length ≤ BUFFER_SIZE := by
  have hvalue := (buffered_spec datagram).get_header_value plain_header_names.1
  have hheader : get_message_header (received datagram client_addr).buffer HEADER_NAME_CALL_ID
      (received datagram client_addr).call_id (received datagram client_addr).call_id_length =
      ok (header_value (buffered datagram) HEADER_NAME_CALL_ID) := hvalue
  rw [get_message_call_id, hheader, bind_ok] at hfound
  cases hcase : header_value (buffered datagram) HEADER_NAME_CALL_ID with
  | none => simp [hcase] at hfound
  | some found =>
    simp only [hcase, Except.ok.injEq, Prod.mk.injEq, Option.some.injEq] at hfound
    obtain ⟨⟨rfl, rfl⟩, rfl⟩ := hfound
    obtain ⟨-, hend, -⟩ := header_value_bounds hcase
    have hfits := length_text_le datagram
    have hdatagram := datagram.fits
    exact ⟨rfl, by omega⟩

/-- `handle_new_message` chooses a worker that exists, without overflow, exactly for a Call-ID
whose bytes from 128 on are outweighed by the others. -/
theorem worker_selected_iff (datagram : Datagram) (client_addr : sockaddr_in) (message : sip_message_t)
    (call_id length : Nat)
    (hfound : get_message_call_id (received datagram client_addr) = ok (some (call_id, length), message)) :
    ∃ hash, string_to_int_hash message.buffer (some call_id) length = ok hash ∧
      (Selects ((message.buffer.drop call_id).take length) hash ↔
        Outweighed ((message.buffer.drop call_id).take length)) := by
  obtain ⟨hbuffer, hend⟩ := call_id_inside hfound
  have hinside : call_id + length ≤ message.buffer.length := by
    rw [hbuffer, length_buffered]
    exact hend
  refine ⟨_, string_to_int_hash_eq hinside, selects_iff ?_⟩
  have htake := List.length_take_le length (message.buffer.drop call_id)
  omega

/-- A datagram whose Call-ID is made of letters. -/
def lettered : Datagram where
  bytes := ascii "Call-ID: ab\r\n"
  fits := by decide

theorem lettered_selects :
    ∃ message, get_message_call_id (received lettered ⟨2, 5060, 1⟩) = ok (some (9, 2), message) ∧
      ∃ hash, string_to_int_hash message.buffer (some 9) 2 = ok hash ∧
        Selects ((message.buffer.drop 9).take 2) hash := by
  have hfound : get_message_call_id (received lettered ⟨2, 5060, 1⟩) =
      ok (some (9, 2), { received lettered ⟨2, 5060, 1⟩ with call_id := some 9, call_id_length := 2 }) := by
    decide +kernel
  obtain ⟨hash, hhash, hiff⟩ := worker_selected_iff lettered ⟨2, 5060, 1⟩ _ 9 2 hfound
  exact ⟨_, hfound, hash, hhash, hiff.mpr (.inl (by decide +kernel))⟩

/-- A datagram whose Call-ID is the byte 255. -/
def high_byte : Datagram where
  bytes := ascii "Call-ID: " ++ [255] ++ CRLF
  fits := by decide

theorem high_byte_selects_no_worker :
    ¬ ∀ (datagram : Datagram) (client_addr : sockaddr_in) (message : sip_message_t) (call_id length : Nat),
      0 < datagram.bytes.length →
      get_message_call_id (received datagram client_addr) = ok (some (call_id, length), message) →
      ∃ hash, string_to_int_hash message.buffer (some call_id) length = ok hash ∧
        Selects ((message.buffer.drop call_id).take length) hash := by
  intro hall
  have hfound : get_message_call_id (received high_byte ⟨2, 5060, 1⟩) =
      ok (some (9, 1), { received high_byte ⟨2, 5060, 1⟩ with call_id := some 9, call_id_length := 1 }) := by
    decide +kernel
  obtain ⟨hash, hhash, hselects⟩ := hall high_byte ⟨2, 5060, 1⟩ _ 9 1 (by decide) hfound
  have hminus : string_to_int_hash (received high_byte ⟨2, 5060, 1⟩).buffer (some 9) 1 = ok (-1) := by
    decide +kernel
  obtain rfl := Except.ok.inj (hminus.symm.trans hhash)
  exact absurd hselects.index.1 (by decide)

end mock_uas.main
