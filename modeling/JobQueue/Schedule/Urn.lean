/-!
# Urns

An urn holds weighted things, of which only the weights matter.  A draw takes one
of them out, with a chance in proportion to its weight among those that are left;
things without weight are never drawn.

`Urn.shares` has the chances that certain things come out at a certain draw.  The
urns that there can be after some draws are listed without repetition, so the work
grows with their number and not with that of the orders in which things come out.
-/

namespace JobQueue

/-- How many things of each weight there are. -/
abbrev Urn := List (Nat × Nat)

namespace Urn

/-- Put a thing of some weight into an urn. -/
def add (w : Nat) : Urn → Urn
  | [] => [(w, 1)]
  | (v, n) :: rest => if v = w then (v, n + 1) :: rest else (v, n) :: add w rest

/-- The urn of some weights. -/
def ofWeights : List Nat → Urn
  | [] => []
  | w :: rest => add w (ofWeights rest)

/-- The weight of all things together. -/
def weight : Urn → Nat
  | [] => 0
  | (w, n) :: rest => w * n + weight rest

/-- The number of things of a weight. -/
def count (w : Nat) : Urn → Nat
  | [] => 0
  | (v, n) :: rest => if v = w then n else count w rest

/-- The draws: the weight of all things of the kind drawn, and the urn left. -/
def draws : Urn → List (Nat × Urn)
  | [] => []
  | (w, n) :: rest =>
    let later := (draws rest).map fun d => (d.1, (w, n) :: d.2)
    if w * n = 0 then later else (w * n, (w, n - 1) :: rest) :: later

/-- Whether an urn is before another one of the same kinds, or equal to it. -/
def isUpTo : Urn → Urn → Bool
  | (_, m) :: a, (_, n) :: b => m < n || (m = n && isUpTo a b)
  | [], _ => true
  | _ :: _, [] => false

/-- Add up the chances of equal urns that follow each other. -/
def collect : List (Urn × Rat) → List (Urn × Rat)
  | [] => []
  | a :: rest =>
    match collect rest with
    | [] => [a]
    | b :: more => if a.1 = b.1 then (a.1, a.2 + b.2) :: more else a :: b :: more

/-- The urns that so many draws can leave, each with its chance. -/
def afterDraws : Nat → Urn → List (Urn × Rat)
  | 0, u => [(u, 1)]
  | n + 1, u =>
    let next (p : Urn × Rat) : List (Urn × Rat) :=
      p.1.draws.map fun d => (d.2, p.2 * ((d.1 : Rat) / (p.1.weight : Rat)))
    collect (((afterDraws n u).flatMap next).mergeSort fun a b => a.1.isUpTo b.1)

/-- The chance that the next draw from one of some urns takes a thing of a weight. -/
def nextChance (urns : List (Urn × Rat)) (w : Nat) : Rat :=
  let chance (p : Urn × Rat) : Rat :=
    p.2 * (((w * p.1.count w : Nat) : Rat) / (p.1.weight : Rat))
  urns.foldl (fun sum p => sum + chance p) 0

/-- For each of some weights in an urn the chance that a certain thing of that weight
comes out after `place` other ones. -/
def shares (u : Urn) (place : Nat) (ws : List Nat) : List Rat :=
  let urns := u.afterDraws place
  ws.map fun w => nextChance urns w / (u.count w : Rat)

example : ofWeights [3, 1, 3] = [(3, 2), (1, 1)] := by decide
example : draws [(3, 2), (1, 1)] = [(6, [(3, 1), (1, 1)]), (1, [(3, 2), (1, 0)])] := by decide

end Urn

end JobQueue
