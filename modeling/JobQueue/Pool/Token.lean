import JobQueue.Pool.Invocation

/-!
# Tokens

The context of an invocation is cancelled through its token, so contexts with one token are
cancelled together.  A pool makes tokens one after the other.  An invocation that is cut off
takes the token of its context with it (`Tokens.heed`); the end of a stop takes all tokens,
those that are made later among them.
-/

namespace JobQueue

/-- What a context is cancelled through. -/
structure Token where
  /-- Its number among the tokens of the pool. -/
  number : Nat
deriving DecidableEq, Repr

/-- The tokens of a pool. -/
structure Tokens where
  /-- How many were made. -/
  made : Nat := 0
  /-- Those of the contexts of the invocations, in the order in which these began. -/
  ofCalls : List Token := []
  /-- Those that were cancelled by themselves, the latest first. -/
  cancelled : List Token := []

namespace Tokens

/-- The token that is made next. -/
def next (k : Tokens) : Token := ⟨k.made⟩

/-- Make a token. -/
def make (k : Tokens) : Tokens := { k with made := k.made + 1 }

/-- Let an invocation begin on a context with a token. -/
def give (k : Tokens) (token : Token) : Tokens := { k with ofCalls := k.ofCalls ++ [token] }

/-- Cancel the token of the context of an invocation that has ended, if it was cut off. -/
def heed (k : Tokens) (call : Nat) (i : Option Invocation) : Tokens :=
  if i.any Invocation.isCut then { k with cancelled := (k.ofCalls[call]?).toList ++ k.cancelled }
  else k

end Tokens

end JobQueue
