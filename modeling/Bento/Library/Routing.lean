import Bento.Library.Ipv4

/-! A routing table by longest prefix. Of the entries that cover an address one with the most
bits decides, and the first of these. -/

namespace Bento.Library.Routing
open Ipv4

structure Entry (δ : Type) where
  address : Addr
  bits : Nat
  device : δ

variable {δ : Type}

def Entry.covers (target : Addr) (entry : Entry δ) : Bool := agree entry.bits target entry.address

def longer (entry : Entry δ) : Option (Entry δ) → Entry δ
  | none => entry
  | some other => if other.bits ≤ entry.bits then entry else other

def longest : List (Entry δ) → Option (Entry δ)
  | [] => none
  | entry :: entries => some (longer entry (longest entries))

def lookup (table : List (Entry δ)) (target : Addr) : Option δ :=
  (longest (table.filter (·.covers target))).map Entry.device

theorem longest_mem {entries : List (Entry δ)} {entry : Entry δ} (found : longest entries = some entry) :
    entry ∈ entries := by
  induction entries generalizing entry with
  | nil => cases found
  | cons first entries ih =>
    simp only [longest, Option.some.injEq] at found
    cases rest : longest entries with
    | none =>
      rw [rest, longer] at found
      exact found ▸ List.mem_cons_self
    | some =>
      rw [rest, longer] at found
      split at found
      · exact found ▸ List.mem_cons_self
      · exact found ▸ List.mem_cons_of_mem first (ih rest)

theorem lookup_covers {table : List (Entry δ)} {target : Addr} {device : δ}
    (found : lookup table target = some device) :
    ∃ entry ∈ table, entry.covers target = true ∧ entry.device = device := by
  obtain ⟨entry, chosen, same⟩ := Option.map_eq_some_iff.mp found
  obtain ⟨listed, covers⟩ := List.mem_filter.mp (longest_mem chosen)
  exact ⟨entry, listed, covers, same⟩

end Bento.Library.Routing
