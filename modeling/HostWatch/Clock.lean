import HostWatch.Fault

/-!
# Clocks

Suppression, rate limits and correlation are the same for every kind of clock reading. A `Clock`
says which reading lies a duration after or before another; among doubles there may be none.
-/

namespace HostWatch

/-- Readings of a clock that durations lead from and to. -/
class Clock (τ : Type) where
  /-- The reading a duration after another. -/
  after : τ → τ → Except Fault τ
  /-- The reading a duration before another. -/
  before : τ → τ → Except Fault τ

/-- Exact seconds. -/
instance : Clock Int where
  after t d := .ok (t + d)
  before t d := .ok (t - d)

instance : Clock Number where
  after t d := Fault.integerTooLarge.ofOption (t.add? d)
  before t d := Fault.integerTooLarge.ofOption (t.sub? d)

end HostWatch
