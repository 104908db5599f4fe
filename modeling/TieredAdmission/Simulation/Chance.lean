import TieredAdmission.Simulation.Run

/-!
# Chance in simulations

What chance decides about the requests of a simulation, from a seed: a fifth of the requests are
enterprise, three tenths premium and half free; latencies are spread evenly over their range; and
calls fail as often as configured.
-/

namespace TieredAdmission

/-- A whole number from `low` to `high`, and the generator after it. -/
def drawBetween (low high : Nat) (g : StdGen) : Nat × StdGen := randNat g low high

def drawOne (c : SimulatorConfig) (g : StdGen) : Draw × StdGen :=
  let (turn, g) := drawBetween 0 9 g
  let (low, high) := c.latencyRange
  let (ms, g) := drawBetween low.millis high.millis g
  let (point, g) := drawBetween 0 999999999 g
  let fails := point.toUInt64.toFloat < c.failureRate * 1e9
  (⟨tierInTurn turn, .ofMillis ms, fails⟩, g)

/-- What chance decides about `n` requests, after those before. -/
def drawMany (c : SimulatorConfig) : Nat → StdGen → Array Draw → Array Draw
  | 0, _, ds => ds
  | n + 1, g, ds =>
    let (d, g) := drawOne c g
    drawMany c n g (ds.push d)

/-- What chance decides about so many requests, from a seed. -/
def drawsFrom (seed : Nat) (c : SimulatorConfig) (n : Nat) : Array Draw :=
  drawMany c n (mkStdGen seed) #[]

end TieredAdmission
