/-!
A restart budget: at most so many restarts within a window of time.

The budget holds the times of the restarts it granted, oldest first. Asking for another one first
drops, from the front, the times that lie outside the window.
-/

namespace Settler.Supervisor

/-- The times of granted restarts, oldest first, and how many the window may hold. -/
structure Budget (τ : Type) where
  limit : Int
  held : List τ := []
  deriving DecidableEq, Repr

namespace Budget

variable {τ : Type}

/-- The budget without the leading times that lie outside the window. -/
def prune (outside : τ → Bool) (b : Budget τ) : Budget τ :=
  { b with held := b.held.dropWhile outside }

/-- Asks for a restart now: whether it is granted, and the budget afterwards. `outside now t` says
that `t` lies outside the window that ends now. -/
def request (outside : τ → τ → Bool) (now : τ) (b : Budget τ) : Bool × Budget τ :=
  let b := b.prune (outside now)
  if b.limit ≤ b.held.length then (false, b) else (true, { b with held := b.held ++ [now] })

/-- Asks at each of the times in turn: the answers and the budget after each. -/
def requests (outside : τ → τ → Bool) : List τ → Budget τ → List (Bool × Budget τ)
  | [], _ => []
  | now :: rest, b =>
    let answer := b.request outside now
    answer :: requests outside rest answer.2

end Budget

end Settler.Supervisor
