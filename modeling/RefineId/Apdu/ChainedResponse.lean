import RefineId.Ccid.Exchange
import RefineId.Pcsc.Exchange

/-! A response that a card stages in parts, over either adapter. -/
namespace RefineId.Apdu

open Data Semantics Semantics.Dialogue List Ccid Pcsc

/-- The raw answers of a card that announces every part but the last with 61xx. -/
def staged (parts : List (Bytes × UInt8)) (last : ResponseApdu) : List Bytes :=
  parts.map (fun part => part.1 ++ [sw1BytesAvailable, part.2]) ++
    [last.body ++ [last.sw1, last.sw2]]

/-- What came before and all parts in order, under the last status word. -/
def joined (combined : Bytes) (parts : List (Bytes × UInt8)) (last : ResponseApdu) : ResponseApdu :=
  { last with body := combined ++ (parts.flatMap Prod.fst ++ last.body) }

theorem splitStatus_append (body : Bytes) (sw1 sw2 : UInt8) :
    splitStatus (body ++ [sw1, sw2]) = some ⟨body, sw1, sw2⟩ := by
  simp [splitStatus]

section Chains
variable {parts : List (Bytes × UInt8)} {last : ResponseApdu} {combined : Bytes}

theorem joined_cons (part : Bytes × UInt8) :
    joined combined (part :: parts) last = joined (combined ++ part.1) parts last := by
  simp [joined]

theorem fits_of_joined
    (hBound : (joined combined parts last).body.length ≤ extendedResponseDataMaxBytes) :
    ¬extendedResponseDataMaxBytes < combined.length := by
  rw [joined, length_append] at hBound
  omega

variable {protocol : CardProtocol} {exchangeLevel : CcidExchangeLevel}

theorem prepare_ok (hTakes : ¬(takesTpdus exchangeLevel ∧ protocol = .t1)) (apdu : Bytes) :
    ∃ prepared, prepareCommandBytes protocol exchangeLevel apdu = .ok prepared := by
  unfold prepareCommandBytes
  rw [if_neg (by simpa using hTakes)]
  split
  · split <;> exact ⟨_, rfl⟩
  · exact ⟨_, rfl⟩

variable (hLast : last.sw1 ≠ sw1BytesAvailable ∧ last.sw1 ≠ sw1WrongLe)
include hLast

theorem ccid_settleChain (hTakes : ¬(Ccid.takesTpdus exchangeLevel ∧ protocol = .t1))
    {iterations} (hCount : parts.length < iterations) (nextLe : UInt8) (wrong : Nat)
    (hParts : ∀ part ∈ parts, part.1 ≠ [])
    (hBound : (joined combined parts last).body.length ≤ extendedResponseDataMaxBytes) :
    (Ccid.settleChain protocol exchangeLevel iterations combined nextLe wrong).follow
        ((staged parts last).map fun raw => .ok (.transferBlock raw)) =
      some (.ok (.response (joined combined parts last)), []) := by
  induction parts generalizing iterations combined nextLe wrong with
  | nil =>
    obtain ⟨iterations, rfl⟩ := Nat.exists_eq_add_of_lt hCount
    obtain ⟨prepared, hPrepared⟩ := prepare_ok hTakes (GetResponse.intoApdu ⟨.plain, nextLe⟩).bytes
    simp only [joined, flatMap_nil, nil_append, length_append] at hBound
    simp [Ccid.settleChain, hPrepared, staged, follow, Ccid.rawResponse, splitStatus_append, hLast,
      Nat.not_lt.mpr hBound, joined]
  | cons part rest ih =>
    obtain ⟨iterations, rfl⟩ := Nat.exists_eq_add_of_lt hCount
    obtain ⟨prepared, hPrepared⟩ := prepare_ok hTakes (GetResponse.intoApdu ⟨.plain, nextLe⟩).bytes
    obtain ⟨hPart, hRest⟩ := forall_mem_cons.mp hParts
    rw [joined_cons] at hBound ⊢
    have hFits := fits_of_joined hBound
    rw [length_append] at hFits
    rw [← ih (Nat.lt_of_succ_lt_succ hCount) part.2 0 hRest hBound]
    simp [Ccid.settleChain, hPrepared, staged, follow, Ccid.rawResponse, splitStatus_append, hFits,
      hPart]

theorem ccid_transmit (hTakes : ¬(Ccid.takesTpdus exchangeLevel ∧ protocol = .t1))
    (command : CommandApdu) (hCount : parts.length ≤ Ccid.maxChainIterations)
    (hParts : ∀ part ∈ parts.tail, part.1 ≠ [])
    (hBound : (joined [] parts last).body.length ≤ extendedResponseDataMaxBytes) :
    (Ccid.transmit protocol exchangeLevel command).follow
        ((staged parts last).map fun raw => .ok (.transferBlock raw)) =
      some (.ok (.response (joined [] parts last)), []) := by
  obtain ⟨prepared, hPrepared⟩ := prepare_ok hTakes command.bytes
  have hRun : (Ccid.runExchange protocol exchangeLevel prepared).follow
      ((staged parts last).map fun raw => .ok (.transferBlock raw)) =
        some (.ok (.response (joined [] parts last)), []) := by
    cases parts with
    | nil =>
      simp [Ccid.runExchange, staged, follow, Ccid.rawResponse, splitStatus_append, hLast, joined]
    | cons part rest =>
      rw [joined_cons, nil_append] at hBound ⊢
      rw [← ccid_settleChain hLast hTakes hCount part.2 0 hParts hBound]
      simp [Ccid.runExchange, staged, follow, Ccid.rawResponse, splitStatus_append]
  unfold Ccid.transmit
  rw [hPrepared]
  refine (follow_bind hRun).trans ?_
  simp [Ccid.wrongLeCorrection, joined, hLast, follow]

variable {LibraryError : Type}

omit hLast in
theorem received_append {body} (h : body.length ≤ 65534) (sw1 sw2 : UInt8) :
    received (.ok (body ++ [sw1, sw2])) =
      (.ok (body ++ [sw1, sw2]) : Except (TransmitBreak LibraryError) _) := by
  rw [received, if_neg]
  rw [length_append, extendedResponseDataMaxBytes, length_cons, length_singleton]
  omega

variable (hShort : last.body.length ≤ 65534)
include hShort

theorem pcsc_settleChain (nextLe : UInt8)
    (hParts : ∀ part ∈ parts, part.1 ≠ [] ∧ part.1.length ≤ 65534)
    (hBound : (joined combined parts last).body.length ≤ extendedResponseDataMaxBytes) :
    (Pcsc.settleChain combined nextLe : Pcsc.Exchange LibraryError).follow
        ((staged parts last).map .ok) =
      some (.ok (.response (joined combined parts last)), []) := by
  induction parts generalizing combined nextLe with
  | nil =>
    simp only [joined, flatMap_nil, nil_append, length_append] at hBound
    rw [Pcsc.settleChain]
    simp [staged, follow, received_append hShort, splitStatus_append, hLast, Nat.not_lt.mpr hBound,
      joined]
  | cons part rest ih =>
    obtain ⟨hPart, hRest⟩ := forall_mem_cons.mp hParts
    rw [joined_cons] at hBound ⊢
    have hFits := fits_of_joined hBound
    rw [length_append] at hFits
    rw [← ih part.2 hRest hBound, Pcsc.settleChain]
    simp [staged, follow, received_append hPart.2, splitStatus_append, hFits, hPart]

theorem pcsc_exchangePlain (protocol : Pcsc.Protocol) (command : CommandApdu)
    (hParts : ∀ part ∈ parts.tail, part.1 ≠ []) (hFit : ∀ part ∈ parts, part.1.length ≤ 65534)
    (hBound : (joined [] parts last).body.length ≤ extendedResponseDataMaxBytes) :
    (Pcsc.exchangePlain protocol command : Pcsc.Exchange LibraryError).follow
        ((staged parts last).map .ok) =
      some (.ok (.response (joined [] parts last)), []) := by
  have hRun : (Pcsc.runT0Exchange (Pcsc.bytesToSend protocol command.bytes) :
      Pcsc.Exchange LibraryError).follow ((staged parts last).map .ok) =
        some (.ok (.response (joined [] parts last)), []) := by
    cases parts with
    | nil =>
      simp [Pcsc.runT0Exchange, staged, follow, received_append hShort, splitStatus_append, hLast,
        joined]
    | cons part rest =>
      rw [joined_cons, nil_append] at hBound ⊢
      rw [tail_cons] at hParts
      obtain ⟨hFirst, hRest⟩ := forall_mem_cons.mp hFit
      rw [← pcsc_settleChain hLast hShort part.2
        (fun other hOther => ⟨hParts other hOther, hRest other hOther⟩) hBound]
      simp [Pcsc.runT0Exchange, staged, follow, received_append hFirst, splitStatus_append]
  refine (follow_bind hRun).trans ?_
  simp [Pcsc.wrongLeCorrection, joined, hLast, follow]

end Chains

/-- Over either adapter a response in up to 257 parts, all but the first of them
not empty, arrives whole under its last status word, unless that is 6Cxx, the
reader takes no T=1 or, over PC/SC, a part with its status word is longer than the
buffer it is received in. Whatever the replies, an exchange ends after a bounded
number of transmissions. -/
theorem response_chains_settled (command : CommandApdu) (protocol : CardProtocol)
    (exchangeLevel : CcidExchangeLevel) (LibraryError : Type) (pcscProtocol : Protocol) :
    (∀ parts last, parts.length ≤ 256 → (∀ part ∈ parts.tail, part.1 ≠ []) →
      (joined [] parts last).body.length ≤ 65536 →
      last.sw1 ≠ sw1BytesAvailable → last.sw1 ≠ sw1WrongLe →
        (¬(takesTpdus exchangeLevel ∧ protocol = .t1) →
          (transmit protocol exchangeLevel command).follow
              ((staged parts last).map fun raw => .ok (.transferBlock raw)) =
            some (.ok (.response (joined [] parts last)), [])) ∧
        ((∀ part ∈ parts, part.1.length + 2 ≤ 65536) → last.body.length + 2 ≤ 65536 →
          (exchangePlain pcscProtocol command : Pcsc.Exchange LibraryError).follow
            ((staged parts last).map .ok) = some (.ok (.response (joined [] parts last)), []))) ∧
    (transmit protocol exchangeLevel command).Bounded (fun _ => True) (257 + 257) ∧
    (exchangePlain pcscProtocol command : Pcsc.Exchange LibraryError).Bounded (fun _ => True)
      (65538 + 65538) := by
  refine ⟨?_, ?_, ?_⟩
  · intro parts last hCount hParts hBound hMore hWrong
    exact ⟨fun hTakes => ccid_transmit ⟨hMore, hWrong⟩ hTakes command hCount hParts hBound,
      fun hFit hShort => pcsc_exchangePlain ⟨hMore, hWrong⟩ (Nat.le_sub_of_add_le hShort)
        pcscProtocol command hParts (fun part hPart => Nat.le_sub_of_add_le (hFit part hPart)) hBound⟩
  · have hRun (apdu : Bytes) :
        (runExchange protocol exchangeLevel apdu).Bounded (fun _ => True) 257 := by
      obtain ⟨next, hAsk, hNext⟩ := runExchange_eq_ask apdu
      rw [hAsk]
      exact ⟨trivial, fun reply => (hNext reply).mono (fun _ _ => trivial) le_rfl⟩
    unfold transmit
    split
    · trivial
    refine (hRun _).bind fun outcome => ?_
    split
    · trivial
    split
    · trivial
    · exact hRun _
  have hRun (apdu : Bytes) : (runT0Exchange apdu : Pcsc.Exchange LibraryError).Bounded
      (fun _ => True) 65538 := by
    obtain ⟨next, hAsk, hNext⟩ := runT0Exchange_eq_ask apdu
    rw [hAsk]
    exact ⟨trivial, fun reply => (hNext reply).mono (fun _ _ => trivial) le_rfl⟩
  refine (hRun _).bind fun outcome => ?_
  split
  · trivial
  · exact hRun _

/-- Over the reader's own protocol a last 6Cxx asks for more. Over PC/SC 65 535
bytes are within the bound of the total, but not with their status word. -/
theorem wrong_length_not_last :
    (transmit .t0 .shortApdu (.case1 ⟨.plain, 0, 0, 0⟩)).follow
        ((staged [([1], 1)] ⟨[2], 0x6C, 1⟩).map fun raw => .ok (.transferBlock raw)) ≠
      some (.ok (.response ⟨[1, 2], 0x6C, 1⟩), []) ∧
    (exchangePlain .t0 (.case1 ⟨.plain, 0, 0, 0⟩) : Pcsc.Exchange Unit).follow
        ((staged [] ⟨replicate 65535 0, 0x90, 0⟩).map .ok) =
      some (.error (.pcsc .insufficientBuffer), []) := by
  constructor
  · intro h
    cases h
  have hLong : received (.ok (replicate 65535 0 ++ [0x90, 0])) =
      (.error (.error (.pcsc .insufficientBuffer)) : Except (TransmitBreak Unit) _) := by
    rw [received, if_pos]
    rw [length_append, length_replicate]
    decide
  refine (follow_bind (?_ : _ = some (.error (.pcsc .insufficientBuffer), []))).trans rfl
  simp only [runT0Exchange, staged, follow, map_nil, nil_append, map_cons, hLong]
  rfl

end RefineId.Apdu
