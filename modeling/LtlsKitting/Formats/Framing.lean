import Mathlib.Data.List.Basic

/-!
# Frames in a stream

A stream is a sequence of frames.  A frame begins with a header of a fixed
length, and the header tells the length of the whole frame, or is invalid.  A
receiver gets the stream in pieces; it keeps what it cannot use yet and cuts
complete frames off, until a header is invalid.

Where a stream is cut into pieces does not matter: the receiver finds the
frames of the whole stream.
-/

namespace LtlsKitting.Formats

universe u

variable {α : Type u}

/-- The length of a header, and the length of the frame that it begins. -/
structure Framing (α : Type u) where
  header : Nat
  length : List α → Option Nat
  positive : ∀ start frame, length start = some frame → 0 < frame

/-- What the beginning of a stream is. -/
inductive Cut (α : Type u) where
  | incomplete
  | invalid
  | frame (packet rest : List α)

/-- The frames that were found, the items that belong to no frame yet, and
whether an invalid header has ended the stream. -/
structure Received (α : Type u) where
  packets : List (List α)
  pending : List α
  broken : Bool
  deriving DecidableEq

def Received.start : Received α where
  packets := []
  pending := []
  broken := false

def Received.cons (packet : List α) (received : Received α) : Received α :=
  { received with packets := packet :: received.packets }

namespace Framing

variable (framing : Framing α)

def cut (pending : List α) : Cut α :=
  if pending.length < framing.header then
    .incomplete
  else
    match framing.length (pending.take framing.header) with
    | none => .invalid
    | some frame =>
        if pending.length < frame then
          .incomplete
        else
          .frame (pending.take frame) (pending.drop frame)

/-- Cut at most the given number of frames off. -/
def drainUpTo : Nat → List α → Received α
  | 0, pending => ⟨[], pending, false⟩
  | count + 1, pending =>
      match framing.cut pending with
      | .incomplete => ⟨[], pending, false⟩
      | .invalid => ⟨[], [], true⟩
      | .frame packet rest => (drainUpTo count rest).cons packet

/-- Cut all complete frames off. -/
def drain (pending : List α) : Received α :=
  framing.drainUpTo (pending.length + 1) pending

/-- Another piece of the stream arrives. -/
def receive (received : Received α) (piece : List α) : Received α :=
  if received.broken then
    received
  else
    let later := framing.drain (received.pending ++ piece)
    { later with packets := received.packets ++ later.packets }

/-- The items are one frame. -/
def IsFrame (packet : List α) : Prop :=
  framing.cut packet = .frame packet []

/-! ## One frame -/

section

variable {framing : Framing α} {pending packet rest : List α}

theorem cut_eq_frame
    (isFrame : framing.cut pending = .frame packet rest) :
    packet ++ rest = pending ∧ 0 < packet.length ∧
      framing.header ≤ pending.length ∧
      framing.length (pending.take framing.header) = some packet.length := by
  simp only [cut] at isFrame
  split at isFrame
  next => cases isFrame
  next long =>
    split at isFrame
    next => cases isFrame
    next frame known =>
      split at isFrame
      next => cases isFrame
      next complete =>
        cases isFrame
        have taken : (pending.take frame).length = frame := by
          rw [List.length_take]
          omega
        refine ⟨List.take_append_drop frame pending, ?_, by omega, ?_⟩
        · rw [taken]
          exact framing.positive _ _ known
        · rw [taken]
          exact known

theorem length_rest_lt
    (isFrame : framing.cut pending = .frame packet rest) :
    rest.length < pending.length := by
  obtain ⟨whole, positive, _⟩ := cut_eq_frame isFrame
  have lengths := congrArg List.length whole
  rw [List.length_append] at lengths
  omega

/-- A frame is found whatever follows it. -/
theorem cut_append_of_frame
    (isFrame : framing.cut pending = .frame packet rest) (more : List α) :
    framing.cut (pending ++ more) = .frame packet (rest ++ more) := by
  obtain ⟨whole, _, long, known⟩ := cut_eq_frame isFrame
  have sameHeader :
      (pending ++ more).take framing.header =
        pending.take framing.header :=
    List.take_append_of_le_length long
  have lengths := congrArg List.length whole
  rw [List.length_append] at lengths
  simp only [cut, sameHeader, known]
  rw [if_neg (by rw [List.length_append]; omega),
    if_neg (by rw [List.length_append]; omega)]
  subst whole
  rw [List.append_assoc, List.take_left, List.drop_left]

theorem cut_append_of_invalid
    (invalid : framing.cut pending = .invalid) (more : List α) :
    framing.cut (pending ++ more) = .invalid := by
  simp only [cut] at invalid
  split at invalid
  next => cases invalid
  next long =>
    have sameHeader :
        (pending ++ more).take framing.header =
          pending.take framing.header :=
      List.take_append_of_le_length (by omega)
    split at invalid
    next unknown =>
      simp only [cut, sameHeader, unknown]
      rw [if_neg (by rw [List.length_append]; omega)]
    next frame known =>
      split at invalid
      next => cases invalid
      next => cases invalid

theorem IsFrame.cut_append
    (isFrame : framing.IsFrame packet) (more : List α) :
    framing.cut (packet ++ more) = .frame packet more :=
  cut_append_of_frame isFrame more

end

/-! ## The whole stream -/

variable {framing : Framing α}

/-- More steps than items are never needed. -/
theorem drainUpTo_eq
    {count : Nat} {pending : List α} (enough : pending.length < count) :
    framing.drainUpTo count pending =
      match framing.cut pending with
      | .incomplete => ⟨[], pending, false⟩
      | .invalid => ⟨[], [], true⟩
      | .frame packet rest => (framing.drain rest).cons packet := by
  induction count using Nat.strongRecOn generalizing pending with
  | ind count inductionHypothesis =>
      cases count with
      | zero => omega
      | succ count =>
          simp only [drainUpTo]
          cases isCut : framing.cut pending with
          | incomplete => rfl
          | invalid => rfl
          | frame packet rest =>
              have shorter := length_rest_lt isCut
              dsimp only
              congr 1
              by_cases same : count = rest.length + 1
              · rw [same]
                rfl
              · rw [drain,
                  inductionHypothesis count (by omega) (by omega),
                  inductionHypothesis (rest.length + 1) (by omega) (by omega)]

theorem drain_eq (pending : List α) :
    framing.drain pending =
      match framing.cut pending with
      | .incomplete => ⟨[], pending, false⟩
      | .invalid => ⟨[], [], true⟩
      | .frame packet rest => (framing.drain rest).cons packet :=
  drainUpTo_eq (Nat.lt_succ_self _)

theorem receive_cons
    (packet : List α) (received : Received α) (piece : List α) :
    framing.receive (received.cons packet) piece =
      (framing.receive received piece).cons packet := by
  cases isBroken : received.broken with
  | true => simp [receive, Received.cons, isBroken]
  | false => simp [receive, Received.cons, isBroken]

/-- What is found in two pieces is found in the second one after the first
one. -/
theorem drain_append (first second : List α) :
    framing.drain (first ++ second) =
      framing.receive (framing.drain first) second := by
  induction hlength : first.length using Nat.strongRecOn
    generalizing first with
  | ind length inductionHypothesis =>
      rw [drain_eq first]
      cases isCut : framing.cut first with
      | incomplete => rfl
      | invalid =>
          rw [drain_eq, cut_append_of_invalid isCut]
          rfl
      | frame packet rest =>
          rw [drain_eq, cut_append_of_frame isCut]
          dsimp only
          rw [receive_cons]
          congr 1
          subst hlength
          exact inductionHypothesis _ (length_rest_lt isCut) rest rfl

/-- The frames of a beginning of the stream are frames of the stream. -/
theorem packets_drain_beginning (first second : List α) :
    (framing.drain first).packets <+:
      (framing.drain (first ++ second)).packets := by
  rw [drain_append, receive]
  split
  · exact List.prefix_rfl
  · exact List.prefix_append _ _

/-- Frames that are written one after the other are found again. -/
theorem drain_flatten
    {packets : List (List α)}
    (frames : ∀ packet ∈ packets, framing.IsFrame packet)
    (rest : List α) :
    framing.drain (packets.flatten ++ rest) =
      { framing.drain rest with
        packets := packets ++ (framing.drain rest).packets } := by
  induction packets with
  | nil => rfl
  | cons packet others inductionHypothesis =>
      have isFrame := frames packet (List.mem_cons_self ..)
      rw [List.flatten_cons, List.append_assoc, drain_eq,
        isFrame.cut_append]
      dsimp only
      rw [inductionHypothesis
        (fun other member => frames other (List.mem_cons_of_mem _ member))]
      rfl

end Framing

end LtlsKitting.Formats
