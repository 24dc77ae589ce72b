import Bento.Store.Lease

/-! The generations of the orders that leave the controller's machine. They are
counted in the shared database, because more than one process dispatches. -/

namespace Bento.Store
open Library.Runs

abbrev Generations := String → Option Int

def saturatingMul (a b : Int) : Int := max (-maxInteger - 1) (min maxInteger (a * b))

def nextDispatchGeneration (objectId : String) (epoch : Int) (rows : Generations) : Except Error (Int × Generations) :=
  let floor := saturatingMul epoch 1000000
  -- The parameter is a machine integer; the sum below is the database's own.
  let excluded := (floor + 1).bmod (2 ^ 64)
  let generation :=
    match rows objectId with
    | none => excluded
    | some current => max (current + 1) excluded
  -- Past the largest integer the database goes on with a real, which cannot be read back.
  if maxInteger < generation then .error .sqlite
  else .ok (generation, Function.update rows objectId (some generation))

structure GenerationCall where
  objectId : String
  epoch : Int

def GenerationCall.perform (rows : Generations) (call : GenerationCall) : Option Int × Generations :=
  match nextDispatchGeneration call.objectId call.epoch rows with
  | .ok (generation, after) => (some generation, after)
  | .error _ => (none, rows)

def generationRun : Generations → List GenerationCall → List (GenerationCall × Option Int) :=
  trace fun rows call =>
    let (returned, after) := call.perform rows
    ((call, returned), after)

end Bento.Store
