import NeuronWired.Link

/-!
# Wire — what the two ends of the link have seen

`heard` pairs every transfer of a trace with the message armed in answer to it.  `acked` are the
payloads the slave has taken responsibility for, `returned` those it has handed to its caller;
`OutLog` follows the outbound messages from `spils_data_send` to the wire.
-/

namespace NeuronWired

/-! ## Exchanges -/

/-- A transfer, the message armed next, and the start state it was armed in.  The message that
`spils_init` arms answers an empty transfer. -/
structure Exchange where
  wire : Bytes
  answer : Bytes
  state : SpilsState
  deriving DecidableEq, Repr

/-- The transfer not yet answered and the exchanges before it. -/
structure Heard where
  pending : Option Bytes
  exchanges : List Exchange
  deriving DecidableEq, Repr

/-- One observation. -/
def Heard.step (h : Heard) : Obs → Heard
  | .transfer w => { h with pending := some w }
  | .armed out _ st _ => ⟨none, h.exchanges ++ [⟨h.pending.getD [], out, st⟩]⟩
  | _ => h

/-- The exchanges of a trace. -/
def heard (trace : List Obs) : Heard := trace.foldl Heard.step ⟨none, []⟩

@[simp] theorem heard_append (trace : List Obs) (x : Obs) :
    heard (trace ++ [x]) = (heard trace).step x := by
  unfold heard; rw [List.foldl_append]; rfl

/-- An observation that is no transfer and arms nothing. -/
def Obs.Local : Obs → Prop
  | .transfer _ | .armed _ _ _ _ => False
  | _ => True

/-- An observation of the interrupt that is no transfer and arms nothing. -/
def Obs.Note : Obs → Prop
  | .event .dataInReady | .event .dataOutSent | .assertFailed _ => True
  | _ => False

theorem Obs.Note.local {x : Obs} (h : x.Note) : x.Local := by
  cases x <;> trivial

theorem Heard.step_local (h : Heard) {x : Obs} (hx : x.Local) : h.step x = h := by
  cases x <;> first | rfl | exact hx.elim

theorem heard_append_local {l : List Obs} (trace : List Obs) (hl : ∀ x ∈ l, x.Local) :
    heard (trace ++ l) = heard trace := by
  induction l generalizing trace with
  | nil => rw [List.append_nil]
  | cons x l ih =>
    rw [List.append_cons, ih _ fun y hy => hl y (List.mem_cons_of_mem _ hy), heard_append,
      Heard.step_local _ (hl x List.mem_cons_self)]

namespace Exchange

/-- The header of a message, if it is there. -/
def header (w : Bytes) : Option (UInt8 × UInt8) :=
  match w with
  | len :: type :: _ => some (len, type)
  | _ => none

/-- The transfer carried a DATA message. -/
def IsData (x : Exchange) : Prop := ∃ len, header x.wire = some (len, MessType.data)

/-- The transfer carried a start message of the given type and of the right length. -/
def IsStart (x : Exchange) (type : UInt8) : Prop := header x.wire = some (2, type)

/-- A transfer of at least two bytes whose type is none of the three that the slave knows. -/
def IsUnknown (x : Exchange) : Prop :=
  ∃ len type, header x.wire = some (len, type) ∧ type ≠ MessType.masterDataSendStart ∧
    type ≠ MessType.masterDataRecvStart ∧ type ≠ MessType.data

/-- The answer is the result message `r`. -/
def Answered (x : Exchange) (r : UInt8) : Prop := x.answer = [2, r]

instance (x : Exchange) (r : UInt8) : Decidable (x.Answered r) := inferInstanceAs (Decidable (_ = _))

/-- The payload of a DATA message: bytes 2 to `head.len`. -/
def payload (x : Exchange) : Option Bytes :=
  match header x.wire with
  | some (len, type) => if type = MessType.data then some ((x.wire.take len.toNat).drop 2) else none
  | none => none

/-- The payload, if the message was answered `RESULT_OK` or `RESULT_OK_BUSY`. -/
def accepted (x : Exchange) : Option Bytes :=
  if x.Answered MessType.resultOk ∨ x.Answered MessType.resultOkBusy then x.payload else none

end Exchange

/-! ## Inbound -/

/-- A payload as an entry of a ledger; empty ones are not entered. -/
def entry (p : Bytes) : List Bytes := if p = [] then [] else [p]

@[simp] theorem entry_nil : entry [] = [] := rfl

/-- What an exchange adds to the ledger of accepted payloads. -/
def Exchange.gain (x : Exchange) : List Bytes := (x.accepted.map entry).getD []

/-- The non-empty payloads of the accepted DATA messages. -/
def acked (trace : List Obs) : List Bytes := (heard trace).exchanges.flatMap Exchange.gain

section Gain

variable {x : Exchange} {r len type : UInt8}

/-- Any other result message than the two that accept. -/
theorem Exchange.not_answered (ha : x.answer = [2, r]) (h1 : r ≠ MessType.resultOk)
    (h2 : r ≠ MessType.resultOkBusy) :
    ¬(x.Answered MessType.resultOk ∨ x.Answered MessType.resultOkBusy) := by
  unfold Exchange.Answered
  rw [ha]
  rintro (h | h)
  · exact h1 (List.cons.inj (List.cons.inj h).2).1
  · exact h2 (List.cons.inj (List.cons.inj h).2).1

theorem Exchange.accepted_refused (ha : x.answer = [2, r]) (h1 : r ≠ MessType.resultOk)
    (h2 : r ≠ MessType.resultOkBusy) : x.accepted = none := if_neg (not_answered ha h1 h2)

theorem Exchange.accepted_other (hh : Exchange.header x.wire = some (len, type))
    (ht : type ≠ MessType.data) : x.accepted = none := by
  have hp : x.payload = none := by
    unfold Exchange.payload
    rw [hh]
    exact if_neg ht
  unfold Exchange.accepted
  rw [hp, ite_self]

theorem Exchange.accepted_data (hh : Exchange.header x.wire = some (len, MessType.data))
    (ha : x.Answered MessType.resultOk ∨ x.Answered MessType.resultOkBusy) :
    x.accepted = some ((x.wire.take len.toNat).drop 2) := by
  have hp : x.payload = some ((x.wire.take len.toNat).drop 2) := by
    unfold Exchange.payload
    rw [hh]
    exact if_pos rfl
  unfold Exchange.accepted
  rw [if_pos ha, hp]

theorem Exchange.gain_none (h : x.accepted = none) : x.gain = [] := by
  unfold Exchange.gain
  rw [h]
  rfl

theorem Exchange.gain_some {p : Bytes} (h : x.accepted = some p) : x.gain = entry p := by
  unfold Exchange.gain
  rw [h]
  rfl

/-- A header received is the header sent. -/
theorem Exchange.header_take {w : Bytes} {k : ℕ} {h : UInt8 × UInt8}
    (hh : Exchange.header (w.take k) = some h) : Exchange.header w = some h := by
  match w, k with
  | [], _ => cases _ : k <;> simp_all [Exchange.header]
  | [a], 0 => simp [Exchange.header] at hh
  | [a], k + 1 => simp [Exchange.header] at hh
  | a :: b :: w, 0 => simp [Exchange.header] at hh
  | a :: b :: w, 1 => simp [Exchange.header] at hh
  | a :: b :: w, k + 2 => simpa [Exchange.header] using hh

theorem Exchange.header_of_length {w : Bytes} (h : 2 ≤ w.length) :
    Exchange.header w = some (w.getD 0 0, w.getD 1 0) := by
  match w with
  | [] => simp at h
  | [_] => simp at h
  | _ :: _ :: _ => rfl

end Gain

/-- The non-empty payloads returned by `spils_data_read`. -/
def returned (trace : List Obs) : List Bytes :=
  trace.flatMap fun
    | .readRet .ok _ data => entry data
    | _ => []

theorem acked_local {trace : List Obs} {x : Obs} (hx : x.Local) : acked (trace ++ [x]) = acked trace := by
  unfold acked; rw [heard_append, Heard.step_local _ hx]

@[simp] theorem returned_append (trace : List Obs) (x : Obs) :
    returned (trace ++ [x]) = returned trace ++ (match x with
      | .readRet .ok _ data => entry data
      | _ => []) := by
  unfold returned; rw [List.flatMap_append, List.flatMap_singleton]

theorem returned_append_note {l : List Obs} (trace : List Obs) (hl : ∀ x ∈ l, x.Note) :
    returned (trace ++ l) = returned trace := by
  induction l generalizing trace with
  | nil => rw [List.append_nil]
  | cons x l ih =>
    rw [List.append_cons, ih _ fun y hy => hl y (List.mem_cons_of_mem _ hy), returned_append]
    have hx := hl x List.mem_cons_self
    cases x <;> first | exact List.append_nil _ | exact hx.elim

/-! ## Memory safety of the reads -/

/-- The copies of `spils_data_read` stay inside the source buffer and inside the caller's array of
`max` bytes. -/
def Obs.Safe (max : ℕ) : Obs → Prop
  | .bufferGet fromPosition len size => fromPosition + len ≤ size
  | .readRet _ dataSize data => (∀ n, dataSize = some n → n ≤ max) ∧ data.length ≤ max
  | _ => True

/-! ## Outbound -/

/-- The DATA message that carries `p`. -/
def messageOf (p : Bytes) : Bytes := UInt8.ofNat (messHeaderSize + p.length) :: MessType.data :: p

/-- The payloads accepted by `spils_data_send` and the messages armed for a `DATA_SENDING` transfer, in
order; the empty dummy has two bytes and is not counted.  `dummyOk` says that every dummy was armed
when no accepted payload was waiting. -/
structure OutLog where
  accepted : List Bytes
  sent : List Bytes
  dummyOk : Bool
  deriving DecidableEq, Repr

/-- One observation. -/
def OutLog.step (o : OutLog) : Obs → OutLog
  | .sendRet (some p) dataSize .ok => { o with accepted := o.accepted ++ [p.take dataSize] }
  | .armed out _ .dataSendStart _ =>
    if messHeaderSize < out.length then { o with sent := o.sent ++ [out] }
    else { o with dummyOk := o.dummyOk && decide (o.accepted.length ≤ o.sent.length) }
  | _ => o

/-- The outbound log of a trace. -/
def outLog (trace : List Obs) : OutLog := trace.foldl OutLog.step ⟨[], [], true⟩

@[simp] theorem outLog_append (trace : List Obs) (x : Obs) :
    outLog (trace ++ [x]) = (outLog trace).step x := by
  unfold outLog; rw [List.foldl_append]; rfl

/-- An observation that says nothing of the outbound half. -/
def Obs.NotOut : Obs → Prop
  | .sendRet _ _ _ | .armed _ _ .dataSendStart _ => False
  | _ => True

theorem OutLog.step_notOut (o : OutLog) {x : Obs} (hx : x.NotOut) : o.step x = o := by
  cases x with
  | armed out n st r => cases st <;> first | rfl | exact hx.elim
  | sendRet p n r => exact hx.elim
  | _ => rfl

end NeuronWired
