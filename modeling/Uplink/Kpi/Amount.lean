import Uplink.Double.Basic
/-!
Amounts of a counter: thousandths in a word that wraps.  Read as a signed word an amount can be
negative.
-/
namespace Uplink

abbrev Amount := UInt64

namespace Amount

def scale : Double := .ofNat 1000

/-- The nearest thousandth, a half away from zero. -/
def ofDouble (x : Double) : Amount := (x.times scale).toWord.toUInt64

def toDouble (a : Amount) : Double := (Double.ofInt a.toInt64.toInt).dividedBy scale

end Amount

end Uplink
