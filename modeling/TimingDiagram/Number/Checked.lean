namespace TimingDiagram

-- Why arithmetic on machine integers stops the program.
inductive Overflow where
  | sum
deriving DecidableEq, Repr

def Overflow.message : Overflow → String
  | .sum => "attempt to add with overflow"

-- The whole numbers that a signed word can hold.
def IsWord (n : Int) : Prop := -0x8000000000000000 ≤ n ∧ n < 0x8000000000000000

instance : DecidablePred IsWord := fun n =>
  inferInstanceAs (Decidable (-0x8000000000000000 ≤ n ∧ n < 0x8000000000000000))

-- The sum of two signed words, if that is one.
def addSigned (a b : Int64) : Except Overflow Int64 :=
  if IsWord (a.toInt + b.toInt) then .ok (Int64.ofInt (a.toInt + b.toInt)) else .error .sum

-- Counts are summed up in 32 bits.
def countLimit : Nat := 0x100000000

def addCounts (a b : Nat) : Except Overflow Nat :=
  if a + b < countLimit then .ok (a + b) else .error .sum

def sumCounts (counts : List Nat) : Except Overflow Nat := counts.foldlM addCounts 0

end TimingDiagram
