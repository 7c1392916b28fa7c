import Cadence.Document.Coerce
import Cadence.Schedule.Basic
import Cadence.Timer.Basic

/-!
# Timing configuration

The period of the heartbeat and the length of a tick.
-/

namespace Cadence

open Document Number

/-- A number of seconds, whole or as a double. -/
inductive Seconds
  | whole (n : Int)
  | double (x : Binary64)
  deriving DecidableEq

/-- Milliseconds cut to an integer; an infinite or undefined number of seconds has none. -/
def Seconds.millis : Seconds → Except NumberError Int
  | whole n => .ok (n * 1000)
  | double x => integerOfDouble (x.mul (Binary64.ofInt 1000))

structure Config where
  heartbeat : Seconds := .whole 60
  tickMillis : Int := defaultTickMillis
  deriving DecidableEq

namespace Config

def heartbeatMillis (c : Config) : Except NumberError Int :=
  c.heartbeat.millis

/-- The period of the heartbeat, if it is one of a timer. -/
def period? (c : Config) : Option Period :=
  match c.heartbeatMillis with
  | .ok millis => Period.ofMillis? millis
  | .error _ => none

def ticksToMillis (c : Config) (ticks : Int) : Int :=
  ticks * c.tickMillis

theorem period?_isSome {c : Config} {m : Int} (hm : c.heartbeatMillis = .ok m) (hpos : 1 ≤ m) :
    c.period?.isSome := by
  rw [period?, hm]
  simp only [Period.ofMillis?]
  rw [dif_pos (by omega)]
  rfl

theorem period?_eq_none {c : Config} {m : Int} (hm : c.heartbeatMillis = .ok m) (hpos : m < 1) :
    c.period? = none := by
  rw [period?, hm]
  exact dif_neg (by omega)

theorem millis_of_period? {c : Config} {m : Int} (hm : c.heartbeatMillis = .ok m) {p : Period}
    (hp : c.period? = some p) : (p.millis : Int) = m := by
  rw [period?, hm] at hp
  simp only [Period.ofMillis?] at hp
  split at hp
  · cases hp
    exact Int.toNat_of_nonneg (by omega)
  · cases hp

end Config

end Cadence
