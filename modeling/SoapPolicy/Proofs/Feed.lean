/-!
# Feeding a machine

A check of a message takes one input after the other and answers each.  `feed` is the run of such a
machine over a list of inputs.  A run over two lists one after the other is the run over the second
from where the first ended (`feed_append`).
-/

namespace SoapPolicy

variable {σ ι ω : Type}

/-- Feed inputs to a machine one after the other.  The answers are in the order of the inputs. -/
def feed (step : σ → ι → σ × ω) (s : σ) : List ι → σ × List ω
  | [] => (s, [])
  | input :: inputs =>
    let (s, answer) := step s input
    let (s, answers) := feed step s inputs
    (s, answer :: answers)

@[simp] theorem feed_nil (step : σ → ι → σ × ω) (s : σ) : feed step s [] = (s, []) := rfl

@[simp] theorem feed_cons (step : σ → ι → σ × ω) (s : σ) (input : ι) (inputs : List ι) :
    feed step s (input :: inputs) =
      ((feed step (step s input).1 inputs).1,
        (step s input).2 :: (feed step (step s input).1 inputs).2) := rfl

theorem feed_append (step : σ → ι → σ × ω) : ∀ (s : σ) (xs ys : List ι),
    feed step s (xs ++ ys) =
      ((feed step (feed step s xs).1 ys).1,
        (feed step s xs).2 ++ (feed step (feed step s xs).1 ys).2)
  | _, [], _ => rfl
  | s, x :: xs, ys => by
    rw [List.cons_append, feed_cons, feed_append step (step s x).1 xs ys, feed_cons]
    rfl

/-- Every input is answered. -/
theorem length_feed (step : σ → ι → σ × ω) : ∀ (s : σ) (inputs : List ι),
    (feed step s inputs).2.length = inputs.length
  | _, [] => rfl
  | s, input :: inputs => congrArg (· + 1) (length_feed step (step s input).1 inputs)

end SoapPolicy
