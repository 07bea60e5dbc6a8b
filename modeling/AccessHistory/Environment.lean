import AccessHistory.Event
import AccessHistory.Ticker

/-!
What trackers share with their callers: the tickers they may read and the log of the events they
report.
-/

set_option autoImplicit false
set_option relaxedAutoImplicit false

namespace AccessHistory

/-- The tickers in reach and the events so far, oldest first. -/
structure Environment where
  clock : Ticker := .manual 0
  /-- The tickers that callers attached, by their numbers. -/
  attached : Nat → Ticker := fun _ => .manual 0
  log : Array Event := #[]
  deriving Inhabited

namespace Environment

/-- The tickers with another one at a number. -/
def replace (tickers : Nat → Ticker) (number : Nat) (ticker : Ticker) (n : Nat) : Ticker :=
  if n = number then ticker else tickers n

def ticker (env : Environment) : TickSource → Ticker
  | .clock => env.clock
  | .attached number => env.attached number

/-- Puts a ticker in the place of another one. -/
def setTicker (env : Environment) (source : TickSource) (ticker : Ticker) : Environment :=
  match source with
  | .clock => { env with clock := ticker }
  | .attached number => { env with attached := replace env.attached number ticker }

@[simp]
theorem ticker_setTicker (env : Environment) (source : TickSource) (ticker : Ticker) :
    (env.setTicker source ticker).ticker source = ticker := by
  cases source with
  | clock => rfl
  | attached number => exact if_pos rfl

@[simp]
theorem setTicker_ticker (env : Environment) (source : TickSource) :
    env.setTicker source (env.ticker source) = env := by
  cases source with
  | clock => rfl
  | attached number =>
    have same : replace env.attached number (env.attached number) = env.attached := by
      funext n
      unfold replace
      split
      · next here => rw [here]
      · rfl
    simp only [setTicker, ticker, same]

def poll (env : Environment) (source : TickSource) : UInt64 × Environment :=
  let (tick, ticker) := (env.ticker source).poll
  (tick, env.setTicker source ticker)

def report (env : Environment) (event : Option Event) : Environment :=
  match event with
  | none => env
  | some e => { env with log := env.log.push e }

/-- The ticker behind a source; the wall clock shows no state. -/
def outlineTicker (env : Environment) : TickSource → Text.Outline
  | .clock => .word "ClockTicker"
  | .attached number => (env.attached number).outline

end Environment

end AccessHistory
