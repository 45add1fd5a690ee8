/-!
Generation contexts. A context bounds how deep records are nested and how large containers
become; once the depth is used up, values that may be absent are, and containers
are empty.
-/
namespace IdlGen.Run

structure Context where
  maxDepth : Int := 5
  maxSize : Int := 4
  depth : Int := 0
deriving DecidableEq, Repr, Inhabited

namespace Context

def exhausted (c : Context) : Bool := decide (c.maxDepth ≤ c.depth)

def size (c : Context) : Int := if c.exhausted then 0 else c.maxSize

def descend (c : Context) : Context := { c with depth := c.depth + 1 }

def levels (c : Context) : Nat → List Context
  | 0 => [c]
  | n + 1 => c :: c.descend.levels n

end Context
end IdlGen.Run
