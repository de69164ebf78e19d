/-!
# Gates

A gate lets one waiter pass for each unit it is given. Waiters pass in the order in which
they came, and units that nobody waits for are kept.
-/

namespace RoomWatch

structure Gate (ι : Type) where
  units : Nat := 0
  waiting : List ι := []
  /-- Waiters that have a unit and have not yet passed. -/
  admitted : List ι := []

namespace Gate

variable {ι : Type} [DecidableEq ι]

/-- Whether someone has come and has neither passed nor left. -/
def IsPresent (g : Gate ι) (a : ι) : Prop := a ∈ g.waiting ∨ a ∈ g.admitted

instance (g : Gate ι) (a : ι) : Decidable (g.IsPresent a) := inferInstanceAs (Decidable (_ ∨ _))

/-- Gives units to the gate; answers who has been admitted. -/
def give (g : Gate ι) (n : Nat) : Gate ι × List ι :=
  let admitted := g.waiting.take n
  ({ units := g.units + (n - g.waiting.length)
     waiting := g.waiting.drop n
     admitted := g.admitted ++ admitted }, admitted)

/-- Comes to the gate, or comes back to it; answers whether the way is free. -/
def enter (g : Gate ι) (a : ι) : Gate ι × Bool :=
  if a ∈ g.admitted then ({ g with admitted := g.admitted.erase a }, true)
  else if a ∈ g.waiting then (g, false)
  else if 0 < g.units then ({ g with units := g.units - 1 }, true)
  else ({ g with waiting := g.waiting ++ [a] }, false)

/-- Leaves without passing. A unit that was meant for the leaver goes to the next waiter;
answers who has been admitted by that. -/
def leave (g : Gate ι) (a : ι) : Gate ι × List ι :=
  if a ∈ g.admitted then { g with admitted := g.admitted.erase a }.give 1
  else ({ g with waiting := g.waiting.erase a }, [])

end Gate

end RoomWatch
