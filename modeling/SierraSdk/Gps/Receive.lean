import SierraSdk.Gps.Message
import SierraSdk.Library.Chunked

/-!
# Receiving messages from the socket

`receivepacket` reads a header in one piece, and then the body that it announces, in at most
eleven pieces. A header that comes in pieces, a body that is announced too long, and a body that
comes in more pieces are errors, after which the caller gives the socket up.

However else the socket splits the messages up, they are received one by one as they were sent
(`receivePackets_messages`).
-/

namespace SierraSdk

namespace Gps

open Unpacking Chunked

/-- `MAX_READ_ITERATIONS` -/
def maxReadIterations : ℕ := 10

/-- What a call of `receivepacket` reports. -/
inductive Received
  | packet (bytes : List UInt8)
  | closed
  | again
  | error (message : String)
  deriving DecidableEq

/-- The message of an error of `recv` that found nothing. -/
def recvAgain : String := "recv Try again"

/-- The length that a header announces. -/
def announced (hdr : List UInt8) : ℕ := (header.run hdr).elim 0 fun r => r.1.length.toNat

/-- The loop that receives a body, with as many iterations left. The one that is too much reads,
too. -/
def receiveBody (length : ℕ) :
    ℕ → List UInt8 → Stream UInt8 → Except String (List UInt8 × Stream UInt8)
  | 0, got, s =>
      if length ≤ got.length then .ok (got, s)
      else if (s.read (length - got.length)).isNone then .error recvAgain
      else
        let count := maxReadIterations + 2
        .error s!"can't get enough data in {count} loops"
  | left + 1, got, s =>
      if length ≤ got.length then .ok (got, s)
      else
        match s.read (length - got.length) with
        | none => .error recvAgain
        | some (bytes, t) => receiveBody length left (got ++ bytes) t

def receivepacket (s : Stream UInt8) : Received × Stream UInt8 :=
  match s.read msgsizeHeader with
  | none => (.again, s)
  | some (hdr, t) =>
      let nbytes := hdr.length
      let length := announced hdr
      if nbytes = 0 then (.closed, t)
      else if nbytes ≠ msgsizeHeader then (.error s!"read length field error {nbytes}", t)
      else if maxGps - msgsizeHeader < length then
        (.error s!"response too big error {length}", t)
      else
        match receiveBody length (maxReadIterations + 1) [] t with
        | .error message => (.error message, t)
        | .ok (body, u) => (.packet (hdr ++ body), u)

/-- So many calls of `receivepacket`. -/
def receivePackets : ℕ → Stream UInt8 → List Received × Stream UInt8
  | 0, s => ([], s)
  | n + 1, s =>
      let r := receivepacket s
      let rs := receivePackets n r.2
      (r.1 :: rs.1, rs.2)

/-- Some message. -/
def IsMessage (bytes : List UInt8) : Prop := ∃ type result body, Message type result body bytes

/-- The lengths of the bodies of messages. -/
def bodyLengths (messages : List (List UInt8)) : List ℕ :=
  messages.map fun bytes => bytes.length - msgsizeHeader

section Receive

variable {got body more : List UInt8} {ns ready : List ℕ} {left n : ℕ}

theorem receiveBody_done {length : ℕ} (s : Stream UInt8) (h : length ≤ got.length) :
    receiveBody length left got s = .ok (got, s) := by
  cases left <;> rw [receiveBody, if_pos h]

/-- Reads that are just enough, and not too many, bring the body. -/
theorem receiveBody_fills (hfills : Fills body.length ns) (hleft : ns.length ≤ left) :
    receiveBody (got.length + body.length) left got ⟨body ++ more, ns ++ ready⟩ =
      .ok (got ++ body, ⟨more, ready⟩) := by
  induction ns generalizing left got body with
  | nil =>
      obtain rfl := List.eq_nil_of_length_eq_zero hfills
      rw [List.append_nil]
      exact receiveBody_done _ (Nat.le_refl _)
  | cons n ns ih =>
      obtain ⟨hpos, hfills⟩ := hfills
      obtain ⟨left, rfl⟩ : ∃ k, left = k + 1 :=
        Nat.exists_eq_add_one_of_ne_zero (Nat.ne_zero_of_lt (Nat.lt_of_succ_le hleft))
      have hlength : (got ++ body.take (min body.length n)).length +
          (body.drop (min body.length n)).length = got.length + body.length := by
        simp only [List.length_append, List.length_take, List.length_drop]
        omega
      have hrest : (body.drop (min body.length n)).length = body.length - n := by
        rw [List.length_drop]
        omega
      have hmin : min body.length n ≤ body.length := Nat.min_le_left ..
      have hloop := @ih (got ++ body.take (min body.length n)) (body.drop (min body.length n)) left
        (hrest ▸ hfills) (Nat.le_of_succ_le_succ hleft)
      rw [hlength, List.append_assoc, List.take_append_drop] at hloop
      rw [receiveBody, if_neg (by omega), Nat.add_sub_cancel_left, List.cons_append, read_cons,
        List.take_append_of_le_length hmin, List.drop_append_of_le_length hmin]
      exact hloop

variable {type : MsgType} {result : UInt16} {bytes : List UInt8}

/-- A message whose header is found whole, and whose body comes in not too many pieces, is
received. -/
theorem receivepacket_message (h : Message type result body bytes) (hn : msgsizeHeader ≤ n)
    (hfills : Fills body.length ns) (hlimit : ns.length ≤ maxReadIterations + 1) :
    receivepacket ⟨bytes ++ more, n :: (ns ++ ready)⟩ = (.packet bytes, ⟨more, ready⟩) := by
  obtain ⟨hdr, hhdr, hrun, rfl⟩ : ∃ hdr, hdr.length = msgsizeHeader ∧
      announced hdr = body.length ∧ bytes = hdr ++ body := by
    refine ⟨_, ?_, ?_, h.bytes_eq⟩
    · rfl
    · have hrun := run_header type.code result (UInt16.ofNat body.length) []
      rw [List.append_nil] at hrun
      rw [announced, hrun]
      exact toNat_ofNat_of_valid h.valid
  have hsmall : ¬ maxGps - msgsizeHeader < body.length :=
    Nat.not_lt.mpr (Nat.le_trans h.valid.le (by decide))
  have hnonzero : hdr.length ≠ 0 := hhdr ▸ Nat.succ_ne_zero _
  have hlength : ¬ hdr.length ≠ msgsizeHeader := not_not_intro hhdr
  have hbody := @receiveBody_fills [] body more ns ready _ hfills hlimit
  rw [List.length_nil, Nat.zero_add, List.nil_append] at hbody
  rw [receivepacket, List.append_assoc, read_append hhdr hn]
  simp only [hrun, hbody, hnonzero, hsmall, if_false, hlength]

/-- Messages that arrive promptly are received one by one as they were sent. -/
theorem receivePackets_messages {messages : List (List UInt8)}
    (h : ∀ bytes ∈ messages, IsMessage bytes)
    (hprompt : Prompt msgsizeHeader (maxReadIterations + 1) (bodyLengths messages) ready) :
    (receivePackets messages.length ⟨messages.flatten ++ more, ready⟩).1 =
      messages.map .packet := by
  induction messages generalizing ready with
  | nil => rfl
  | cons bytes messages ih =>
      obtain ⟨type, result, body, hmessage⟩ := h bytes List.mem_cons_self
      have hlength : bytes.length - msgsizeHeader = body.length := by
        rw [hmessage.bytes_eq, List.length_append]
        exact Nat.add_sub_cancel_left ..
      rw [bodyLengths, List.map_cons, hlength] at hprompt
      cases hprompt with
      | cons hheader hbody hlimit hrest =>
          rw [List.length_cons, receivePackets, List.flatten_cons, List.append_assoc,
            receivepacket_message hmessage hheader hbody hlimit, List.map_cons]
          exact congrArg _ (ih (fun _ hmem => h _ (List.mem_cons_of_mem _ hmem)) hrest)

end Receive

end Gps

end SierraSdk
