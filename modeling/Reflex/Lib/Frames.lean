import Mathlib.Data.List.Basic

/-!
# Message boundaries

A machine reads a stream one element at a time and rests between messages. What it takes for
one message is what it reads until it rests again (`Takes`). A sender and a reader agree on
boundaries if the reader takes each message as it was sent (`TakesAll`), where the reader may
prepare for a message before it arrives; then it rests after any number of messages.
-/

namespace Reflex.Lib

variable {σ α β : Type*} {step : σ → α → σ} {rests : σ → Prop} {s : σ}

/-- The machine rests after the message, and not before its end. -/
structure Takes (step : σ → α → σ) (rests : σ → Prop) (s : σ) (message : List α) : Prop where
  more : message ≠ []
  ends : rests (message.foldl step s)
  inside : ∀ front tail, message = front ++ tail → front ≠ [] → tail ≠ [] → ¬ rests (front.foldl step s)

variable (step rests) (prepare : β → σ → σ) (message : β → List α)

/-- The state after one exchange. -/
def takeOne (s : σ) (e : β) : σ := (message e).foldl step (prepare e s)

def TakesAll : σ → List β → Prop
  | _, [] => True
  | s, e :: es => Takes step rests (prepare e s) (message e) ∧ TakesAll (takeOne step prepare message s e) es

variable {step rests prepare message}

theorem TakesAll.at_rest {es : List β} (all : TakesAll step rests prepare message s es) (start : rests s) (k : Nat) :
    rests ((es.take k).foldl (takeOne step prepare message) s) := by
  induction es generalizing s k with
  | nil => rwa [List.take_nil]
  | cons e es ih =>
    cases k with
    | zero => exact start
    | succ k => exact ih all.2 all.1.ends k

end Reflex.Lib
