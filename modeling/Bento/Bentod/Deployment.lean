import Bento.Bentod.Runners
import Bento.Runner.Serve

/-! A whole deployment: the shared database with the copies that were taken of it, the
processes that acquire leases and dispatch, a network that delivers what was sent in any
order and any number of times, and the runners with their own memories. -/

namespace Bento.Bentod
open Runner Store

structure Database where
  lease : LeaseRow
  generations : Generations

def Database.new : Database := ⟨.free, fun _ => none⟩

def restoreDb (source _target : Database) : Database := source

structure Setting where
  codec : Codec
  maxSkewSeconds : Nat
  encode : Reply → Except HostError String

structure Deployment where
  database : Database
  snapshots : List Database
  leases : List Lease
  replaced : Nat
  sent : List Envelope
  runners : String → FenceStore

def Deployment.new : Deployment := ⟨.new, [], [], 0, [], fun _ => .empty⟩

inductive Event where
  | lease (call : LeaseCall)
  | dispatch (sending : Sending) (order : Order)
  | deliver (index : Nat) (machineId : String) (around : Surroundings)
  | snapshot
  | restore (index : Nat)

/-- A process dispatches under a lease that it or the controller acquired; renewals have
moved the expiry, not the epoch and the holder. -/
def Deployment.step (setting : Setting) (state : Deployment) : Event → Option Deployment
  | .lease call =>
    let (acquired, lease) := call.perform state.database.lease
    some { state with database := { state.database with lease }, leases := state.leases ++ acquired.toList }
  | .dispatch sending order =>
    if ∃ lease ∈ state.leases, lease.epoch = sending.lease.epoch ∧ lease.holderId = sending.lease.holderId then
      let (result, generations) := (order.dispatch setting.codec sending).run.run state.database.generations
      some { state with database := { state.database with generations }, sent := state.sent ++ result.toOption.join.toList }
    else
      none
  | .deliver index machineId around => do
    let envelope ← state.sent[index]?
    let served := exchange ⟨machineId, setting.maxSkewSeconds⟩ setting.encode (state.runners machineId) around envelope
    return { state with runners := Function.update state.runners machineId served.after }
  | .snapshot => some { state with snapshots := state.snapshots ++ [state.database] }
  | .restore index => do
    let copy ← state.snapshots[index]?
    return { state with database := restoreDb copy state.database, replaced := state.leases.length }

end Bento.Bentod
