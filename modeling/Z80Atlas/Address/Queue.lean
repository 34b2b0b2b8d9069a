import Z80Atlas.Address.Basic

namespace Z80Atlas

-- The addresses that come out next, and the latest arrivals backwards.
structure AddressQueue where
  front : List Address := []
  back : List Address := []
  deriving Inhabited

namespace AddressQueue

def toList (queue : AddressQueue) : List Address := queue.front ++ queue.back.reverse

def ofList (addresses : List Address) : AddressQueue := ⟨addresses, []⟩

def push (queue : AddressQueue) (address : Address) : AddressQueue :=
  { queue with back := address :: queue.back }

def size (queue : AddressQueue) : Nat := queue.front.length + queue.back.length

def pop? (queue : AddressQueue) : Option (Address × AddressQueue) :=
  match queue.front with
  | address :: front => some (address, ⟨front, queue.back⟩)
  | [] =>
    match queue.back.reverse with
    | address :: front => some (address, ⟨front, []⟩)
    | [] => none

@[simp]
theorem toList_ofList (addresses : List Address) : (ofList addresses).toList = addresses := by
  simp [ofList, toList]

@[simp]
theorem toList_push (queue : AddressQueue) (address : Address) :
    (queue.push address).toList = queue.toList ++ [address] := by
  simp [push, toList]

theorem size_eq_length (queue : AddressQueue) : queue.size = queue.toList.length := by
  simp [size, toList]

-- Popping splits the list of waiting addresses at its head.
theorem toList_of_pop? {queue rest : AddressQueue} {address : Address}
    (h : queue.pop? = some (address, rest)) : queue.toList = address :: rest.toList := by
  obtain ⟨front, back⟩ := queue
  cases front with
  | cons first front =>
    simp only [pop?, Option.some.injEq, Prod.mk.injEq] at h
    obtain ⟨rfl, rfl⟩ := h
    rfl
  | nil =>
    simp only [pop?] at h
    split at h
    · next first front hback =>
      simp only [Option.some.injEq, Prod.mk.injEq] at h
      obtain ⟨rfl, rfl⟩ := h
      simp [toList, hback]
    · cases h

theorem toList_eq_nil_of_pop? {queue : AddressQueue} (h : queue.pop? = none) :
    queue.toList = [] := by
  obtain ⟨front, back⟩ := queue
  cases front with
  | cons first front => simp [pop?] at h
  | nil =>
    simp only [pop?] at h
    split at h
    · cases h
    · next hback => simpa [toList] using hback

theorem size_of_pop? {queue rest : AddressQueue} {address : Address}
    (h : queue.pop? = some (address, rest)) : queue.size = rest.size + 1 := by
  simp [size_eq_length, toList_of_pop? h]

end AddressQueue

end Z80Atlas
