import Mathlib.Data.List.Basic

/-!
# Sending in pieces

A sender offers bytes to a library that accepts some of them or refuses. `sendLoop` offers
until nothing is left or a call is refused; `drain` sends a queue of messages, each of which
is gone or stays at the head. What they keep is proved by `sendLoop_rule` and `drain_rule`,
from what one accepted piece and one message keep.
-/

namespace Reflex.Lib

open List

variable {σ α : Type*}

/-- How a loop that sends ends; `done` if nothing is left to send. -/
structure Sending (σ : Type*) where
  state : σ
  answers : List (Option Nat)
  done : Bool

section Loop

variable (offer : σ → List α) (advance : σ → List α → σ)

/-- Each call takes an answer: `none` refuses, `some k` accepts up to `k + 1` elements. Without
an answer the call is refused. -/
def sendLoop : List (Option Nat) → σ → Sending σ
  | [], s => ⟨s, [], (offer s).isEmpty⟩
  | answer :: answers, s =>
    if (offer s).isEmpty then ⟨s, answer :: answers, true⟩
    else
      match answer with
      | none => ⟨s, answers, false⟩
      | some k => sendLoop answers (advance s ((offer s).take (k + 1)))

variable {offer advance}

theorem sendLoop_rule {P : σ → Prop} (step : ∀ s bytes, P s → bytes ≠ [] → bytes <+: offer s → P (advance s bytes))
    (answers : List (Option Nat)) {s : σ} (start : P s) :
    P (sendLoop offer advance answers s).state ∧
      ((sendLoop offer advance answers s).done = true → offer (sendLoop offer advance answers s).state = []) := by
  induction answers generalizing s with
  | nil => exact ⟨start, isEmpty_iff.1⟩
  | cons answer answers ih =>
    cases answer with
    | none =>
      rw [sendLoop]
      split_ifs with empty
      · exact ⟨start, fun _ => isEmpty_iff.1 empty⟩
      · exact ⟨start, False.elim⟩
    | some k =>
      rw [sendLoop]
      split_ifs with empty
      · exact ⟨start, fun _ => isEmpty_iff.1 empty⟩
      · apply ih
        apply step s _ start _ ( take_prefix _ _)
        rw [ne_eq, take_eq_nil_iff, not_or]
        exact ⟨k.succ_ne_zero, fun none => empty (isEmpty_iff.2 none)⟩

/-- The answers accept `n` elements. -/
def accepts : Nat → List (Option Nat) → Bool
  | 0, _ => true
  | _ + 1, [] | _ + 1, none :: _ => false
  | n + 1, some k :: answers => accepts (n - k) answers

/-- Enough answers end a loop whose offer shrinks by what is accepted. -/
theorem sendLoop_done (shrinks : ∀ s bytes, bytes <+: offer s → (offer (advance s bytes)).length = (offer s).length - bytes.length)
    {answers s} (all : accepts (offer s).length answers = true) :
    (sendLoop offer advance answers s).done = true := by
  induction answers generalizing s with
  | nil =>
    cases offered : offer s with
    | nil => rw [sendLoop, offered]; rfl
    | cons b bytes => rw [offered] at all; cases all
  | cons answer answers ih =>
    by_cases empty : (offer s).isEmpty = true
    · cases answer <;> rw [sendLoop, if_pos empty]
    · obtain ⟨n, length⟩ : ∃ n, (offer s).length = n + 1 :=
        Nat.exists_eq_succ_of_ne_zero fun none => empty (isEmpty_iff.2 (length_eq_zero_iff.1 none))
      rw [length] at all
      cases answer with
      | none => cases all
      | some k =>
        rw [sendLoop, if_neg empty]
        apply ih
        rw [shrinks s _ ( take_prefix _ _), length_take, length]
        rw [accepts] at all
        have rest : n + 1 - min (k + 1) (n + 1) = n - k := by omega
        rw [rest]
        exact all

theorem append_drop_piece {piece l : List α} {n} (part : piece <+: l.drop n) : piece ++ l.drop (n + piece.length) = l.drop n := by
  obtain ⟨rest, whole⟩ := part
  rw [← drop_drop, ← whole, drop_left]

/-- A cursor `pos` over a stream: what is out, followed by what is left, does not change. -/
structure Cursor (stream : List α) (pos : σ → Nat) (out : σ → List α) (start s : σ) : Prop where
  within : pos s ≤ stream.length
  kept : out s ++ stream.drop (pos s) = out start ++ stream.drop (pos start)

theorem Cursor.refl {stream : List α} {pos} (out : σ → List α) {s} (within : pos s ≤ stream.length) :
    Cursor stream pos out s s := ⟨within, rfl⟩

theorem Cursor.moved {stream piece : List α} {pos : σ → Nat} {out : σ → List α} {start s t : σ} (cursor : Cursor stream pos out start s)
    (part : piece <+: stream.drop (pos s)) (moves : pos t = pos s + piece.length) (sends : out t = out s ++ piece) :
    Cursor stream pos out start t := by
  have within := cursor.within
  have length := part.length_le
  rw [length_drop] at length
  refine ⟨by omega, ?_⟩
  rw [moves, sends, append_assoc, append_drop_piece part, cursor.kept]

end Loop

section Drain

variable (send : α → σ → Bool × α × σ)

/-- Send the messages in order until one stays. -/
def drain : List α → σ → List α × σ
  | [], s => ([], s)
  | x :: xs, s => if (send x s).1 then drain xs (send x s).2.2 else ((send x s).2.1 :: xs, (send x s).2.2)

variable {send}

theorem drain_rule {P : List α → σ → Prop} (gone : ∀ x xs s, P (x :: xs) s → (send x s).1 = true → P xs (send x s).2.2)
    (stays : ∀ x xs s, P (x :: xs) s → (send x s).1 = false → P ((send x s).2.1 :: xs) (send x s).2.2) {xs : List α} {s : σ}
    (start : P xs s) : P (drain send xs s).1 (drain send xs s).2 := by
  induction xs generalizing s with
  | nil => exact start
  | cons x xs ih =>
    rw [drain]
    split_ifs with sent
    · exact ih (gone x xs s start sent)
    · exact stays x xs s start (Bool.eq_false_iff.2 sent)

end Drain

end Reflex.Lib
