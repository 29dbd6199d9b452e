import Reckoner.Value.Comparison
import Reckoner.Double.Hash

/-!
# Sets of values

A set keeps its values in the order in which they were put in, and in buckets by their hashes. A value
is hashed by its nearest double and is compared as a number, but only with the values in the bucket of
its hash: a value that is equal to one in another bucket would be kept beside it.
-/

namespace Reckoner

namespace Value

/-- The hash of a value, given how doubles are hashed. -/
def hashBy (hash : Double → Int) (v : Value) : Int := hash v.toDouble

/-- A set of values, given how doubles are hashed. -/
structure HashSet (hash : Double → Int) where
  /-- The values in the order in which they were put in. -/
  values : List Value
  /-- The values of a hash, in the same order. -/
  bucket : Int → List Value
  bucket_eq : ∀ code, bucket code = values.filter (·.hashBy hash = code)

namespace HashSet

variable {hash : Double → Int}

def empty : HashSet hash := ⟨[], fun _ => [], fun _ => rfl⟩

/-- Is there a value of the same hash in the set that is equal as a number? -/
def contains (set : HashSet hash) (v : Value) : Bool := (set.bucket (v.hashBy hash)).any (·.same v)

/-- Puts a value into the set, unless it is there. -/
def insert (set : HashSet hash) (v : Value) : HashSet hash :=
  if set.contains v then set
  else
    { values := set.values ++ [v]
      bucket := fun code =>
        if v.hashBy hash = code then set.bucket code ++ [v] else set.bucket code
      bucket_eq := fun code => by
        rw [List.filter_append, set.bucket_eq]
        split <;> simp [*] }

/-- The set of the values in a list. -/
def ofList (hash : Double → Int) (values : List Value) : HashSet hash := values.foldl insert empty

end HashSet

/-- The values of a list that are kept when one after the other is put into a set. -/
def distinct (values : List Value) : List Value := (HashSet.ofList (Double.hash 0) values).values

end Value

end Reckoner
