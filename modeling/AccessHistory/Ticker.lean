import AccessHistory.Text.Outline

/-!
Tickers, which are polled for the time. Ticks are words; what a tick lasts is up to the ticker.
-/

set_option autoImplicit false
set_option relaxedAutoImplicit false

namespace AccessHistory

inductive Ticker where
  /-- Stands at a tick until somebody moves it. -/
  | manual (tick : UInt64)
  /-- Gives one listed tick a poll, and the last one for ever after. -/
  | script (ticks : Array UInt64) (polls : Nat)
  deriving DecidableEq, Inhabited

namespace Ticker

/-- The tick that a poll reads, and the ticker after it. -/
def poll : Ticker → UInt64 × Ticker
  | manual tick => (tick, manual tick)
  | script ticks polls =>
    (ticks[min polls (ticks.size - 1)]?.getD 0, script ticks (polls + 1))

def set (tick : UInt64) : Ticker → Ticker
  | manual _ => manual tick
  | script ticks polls => script ticks polls

/-- Moves a manual ticker on; ticks wrap at the word size. -/
def advance (ticks : UInt64) : Ticker → Ticker
  | manual tick => manual (tick + ticks)
  | script listed polls => script listed polls

def polls : Ticker → Nat
  | manual _ => 0
  | script _ polls => polls

def outline : Ticker → Text.Outline
  | manual tick => .record "ManualTicker" [("tick", .ofNat tick.toNat)]
  | script ticks polls =>
    .record "ScriptTicker" [
      ("ticks", .list (ticks.toList.map fun t => .ofNat t.toNat)),
      ("polls", .ofNat polls)]

end Ticker

/-- Which ticker of its environment a tracker reads. -/
inductive TickSource where
  /-- The wall clock, in seconds. -/
  | clock
  /-- A ticker of the caller's. Each has a number of its own. -/
  | attached (number : Nat)
  deriving DecidableEq, Inhabited

end AccessHistory
