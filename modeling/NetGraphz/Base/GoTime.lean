import Mathlib

/-! Go's `time.Time` and `time.Duration`, as far as the services compare
them: an instant is a number of nanoseconds, a duration is an int64 one. -/
namespace NetGraphz

/-- An instant, in nanoseconds since the Unix epoch. -/
abbrev Time := Int

/-- A span of time in nanoseconds. -/
abbrev Duration := Int

namespace Time

def minDuration : Duration := -2 ^ 63
def maxDuration : Duration := 2 ^ 63 - 1

/-- `time.Time.Sub` saturates at the ends of the int64 range. -/
def sub (t u : Time) : Duration := max minDuration (min maxDuration (t - u))

/-- `time.Time.Unix`: whole seconds, rounded towards the past. -/
def unix (t : Time) : Int := t / 1000000000

end Time

end NetGraphz
