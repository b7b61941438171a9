namespace ChoonzMoba

structure Pcg32 where
  state : UInt64
  inc : UInt64
deriving DecidableEq, Repr

def pcg32Next (r : Pcg32) : UInt32 × Pcg32 :=
  let old := r.state
  let next := { r with state := old * 6364136223846793005 + (r.inc ||| 1) }
  let xorshifted := (((old >>> 18) ^^^ old) >>> 27).toUInt32
  let rot := (old >>> 59).toUInt32
  ((xorshifted >>> rot) ||| (xorshifted <<< ((0 - rot) &&& 31)), next)

def pcg32Seed (seed seq : UInt64) : Pcg32 :=
  let start : Pcg32 := ⟨0, (seq <<< 1) ||| 1⟩
  let first := (pcg32Next start).2
  (pcg32Next { first with state := first.state + seed }).2

def pcg32Threshold (bound : UInt32) : UInt32 := (0 - bound) % bound

-- `none` is a loop that has not ended after that many draws
def pcg32RangeLoop (threshold bound : UInt32) : Nat → Pcg32 → Option (UInt32 × Pcg32)
  | 0, _ => none
  | draws + 1, r =>
    let (x, next) := pcg32Next r
    if threshold ≤ x then some (x % bound, next) else pcg32RangeLoop threshold bound draws next

def pcg32Range (draws : Nat) (r : Pcg32) (bound : UInt32) : Option (UInt32 × Pcg32) :=
  if bound = 0 then some (0, r) else pcg32RangeLoop (pcg32Threshold bound) bound draws r

end ChoonzMoba
