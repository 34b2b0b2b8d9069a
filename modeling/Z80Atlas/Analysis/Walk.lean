import Z80Atlas.Address.Set

namespace Z80Atlas

-- A walk may stand at the addresses that it admits and leads from each to its exits.
structure Walk where
  admits : Address → Bool
  exits : Address → List Address

namespace Walk

-- Visit what can be reached from the pending addresses outside `seen`, and put it before `trail`,
-- latest first. Each visit leaves one address fewer unseen.
def visit (walk : Walk) (seen : AddressSet) (trail : List Address) : List Address → List Address
  | [] => trail
  | address :: pending =>
    if seen.contains address || !walk.admits address then walk.visit seen trail pending
    else walk.visit (seen.insert address) (address :: trail) (walk.exits address ++ pending)
termination_by pending => (seen.absent, pending.length)
decreasing_by
  · exact Prod.Lex.right _ (Nat.lt_succ_self _)
  · next h => exact Prod.Lex.left _ _ (AddressSet.absent_insert_lt (by simp at h; simp [h.1]))

def visited (walk : Walk) (start : Address) : List Address := walk.visit ∅ [] [start]

def meetsFrom (walk : Walk) (goal : Address → Bool) (seen : AddressSet) : List Address → Bool
  | [] => false
  | address :: pending =>
    if seen.contains address || !walk.admits address then walk.meetsFrom goal seen pending
    else if goal address then true
    else walk.meetsFrom goal (seen.insert address) (walk.exits address ++ pending)
termination_by pending => (seen.absent, pending.length)
decreasing_by
  · exact Prod.Lex.right _ (Nat.lt_succ_self _)
  · next h _ => exact Prod.Lex.left _ _ (AddressSet.absent_insert_lt (by simp at h; simp [h.1]))

def meets (walk : Walk) (goal : Address → Bool) (start : Address) : Bool :=
  walk.meetsFrom goal ∅ [start]

end Walk

end Z80Atlas
