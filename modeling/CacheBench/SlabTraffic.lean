import CacheBench.Execution
import CacheBench.SlabOperations

namespace CacheBench.Manager

open Execution

/-!
# Addresses that are handed out

A caller of the slab manager keeps the addresses `get_address` returned and
gives each of them back to `man_delete` once.  A ledger is the manager together
with the addresses that are out.  Whatever the caller does with the other
addresses, the slot at an address that is out stays in use and is not handed
out again.
-/

/-- The item of a slab that starts at an address. -/
def ItemAt (man : Manager) (number item address : Nat) : Prop :=
  ∃ slab,
    man.slabs[number]? = some slab ∧
      item < capacity slab.slabClass ∧
      address = slab.addr + slab.slabClass * item

/-- An item that is in use starts at the address. -/
def InUse (man : Manager) (address : Nat) : Prop :=
  ∃ number item,
    man.ItemAt number item address ∧ man.used number item = true

section Items

variable {man after : Manager} {number item address : Nat}

/-- One item starts at an address. -/
theorem Laid.itemAt_unique
    (laid : man.Laid)
    {otherNumber otherItem : Nat}
    (isItem : man.ItemAt number item address)
    (isOther : man.ItemAt otherNumber otherItem address) :
    number = otherNumber ∧ item = otherItem := by
  obtain ⟨slab, present, inCapacity, isAddress⟩ := isItem
  obtain ⟨other, otherPresent, otherInCapacity, sameAddress⟩ := isOther
  have ends := IsClass.slot_le_memorySize inCapacity
  have otherEnds := IsClass.slot_le_memorySize otherInCapacity
  have memoryInBlock : memorySize < getSlabSize := by
    decide
  have sameSlab : number = otherNumber := by
    by_contra different
    have apart := laid.apart_of_ne present otherPresent different
    unfold Apart at apart
    omega
  subst otherNumber
  rw [present, Option.some.injEq] at otherPresent
  subst other
  have positive : 0 < slab.slabClass := by
    have atLeast := laid.smallest slab (List.mem_of_getElem? present)
    omega
  refine ⟨rfl, Nat.eq_of_mul_eq_mul_left positive ?_⟩
  omega

/-- Items stay at their addresses while the blocks stay. -/
theorem ItemAt.of_sameBlocks
    (isItem : man.ItemAt number item address)
    (same : SameBlocks man after) :
    after.ItemAt number item address := by
  obtain ⟨slab, present, inCapacity, isAddress⟩ := isItem
  obtain ⟨newSlab, newPresent, sameBlock⟩ := same.slab present
  refine ⟨newSlab, newPresent, ?_, ?_⟩
  · rw [sameBlock.slabClass]
    exact inCapacity
  · rw [sameBlock.addr, sameBlock.slabClass]
    exact isAddress

/-- The item at an address is in use exactly if the address is. -/
theorem Laid.inUse_iff
    (laid : man.Laid)
    (isItem : man.ItemAt number item address) :
    man.InUse address ↔ man.used number item = true := by
  constructor
  · rintro ⟨otherNumber, otherItem, isOther, isUsed⟩
    obtain ⟨rfl, rfl⟩ := laid.itemAt_unique isItem isOther
    exact isUsed
  · intro isUsed
    exact ⟨number, item, isItem, isUsed⟩

/-- The address that was returned is that of a slot that was free. -/
theorem Laid.itemAt_of_reserved
    (laid : man.Laid)
    {slabClass : Nat}
    (reserved : Reserved man slabClass (some address) after) :
    ∃ number item,
      man.ItemAt number item address ∧
        man.used number item = false ∧
        ∀ query other,
          after.used query other =
            (man.used query other ||
              decide (query = number ∧ other = item)) := by
  generalize isAddress : some address = result at reserved
  cases reserved with
  | exhausted allUsed sameUsed =>
      cases isAddress
  | @slot _ number item slab present accepts first earlier marked =>
      have inCapacity :=
        laid.inCapacity (List.mem_of_getElem? present) first
      rw [slot_mod_eq inCapacity, Option.some.injEq] at isAddress
      refine ⟨number, item, ⟨slab, present, inCapacity, isAddress⟩, ?_,
        marked⟩
      rw [used_eq present]
      exact first.clear

/-- What a call to `get_address` does to the items. -/
structure Issued
    (man after : Manager)
    (result : Option Nat) : Prop where
  same : SameBlocks man after
  laid : after.Laid
  kept :
    ∀ number item, man.used number item = true →
      after.used number item = true
  slot :
    ∀ address, result = some address →
      ∃ number item,
        man.ItemAt number item address ∧
          man.used number item = false ∧
          ∀ query other,
            after.used query other =
              (man.used query other ||
                decide (query = number ∧ other = item))

/-- Every call to `get_address` returns. -/
theorem Laid.getAddress
    (laid : man.Laid)
    (valSize : Nat) :
    ∃ result after,
      CacheBench.getAddress man valSize = .ok (result, after) ∧
        Issued man after result := by
  obtain ⟨result, after, returned, same, -, reserved⟩ :=
    @getAddress_reserves _ valSize man rfl
  refine ⟨result, after, returned, same, laid.of_reserved same reserved,
    ?_, ?_⟩
  · intro number item isUsed
    cases reserved with
    | exhausted allUsed sameUsed =>
        rw [sameUsed, isUsed]
    | slot present accepts first earlier marked =>
        rw [marked, isUsed, Bool.true_or]
  · rintro address rfl
    exact laid.itemAt_of_reserved reserved

/-- What a call to `get_address` that returned did to the items. -/
theorem Laid.issued
    (laid : man.Laid)
    {valSize : Nat}
    {result : Option Nat}
    (returned :
      CacheBench.getAddress man valSize = .ok (result, after)) :
    Issued man after result := by
  obtain ⟨_, _, same, issued⟩ := laid.getAddress valSize
  rw [returned] at same
  cases same
  exact issued

/-- An address that is returned was not in use and now is. -/
theorem Issued.inUse
    (laid : man.Laid)
    (issued : Issued man after (some address)) :
    ¬ man.InUse address ∧ after.InUse address := by
  obtain ⟨number, item, isItem, isFree, marked⟩ :=
    issued.slot address rfl
  constructor
  · rw [laid.inUse_iff isItem, isFree]
    exact Bool.false_ne_true
  · refine ⟨number, item, isItem.of_sameBlocks issued.same, ?_⟩
    simp [marked]

/-- Addresses in use stay so when another one is returned. -/
theorem Issued.inUse_kept
    {result : Option Nat}
    (issued : Issued man after result)
    (inUse : man.InUse address) :
    after.InUse address := by
  obtain ⟨number, item, isItem, isUsed⟩ := inUse
  exact ⟨number, item, isItem.of_sameBlocks issued.same,
    issued.kept number item isUsed⟩

/-- What a call to `man_delete` for an address in use does to the items. -/
structure Release (man after : Manager) (address : Nat) : Prop where
  same : SameBlocks man after
  laid : after.Laid
  inUse_kept : ∀ other, man.InUse other → other ≠ address → after.InUse other

/-- Every call to `man_delete` for the address of an item returns. -/
theorem Laid.release
    (laid : man.Laid)
    (isItem : man.ItemAt number item address) :
    ∃ after,
      CacheBench.manDelete man address = .ok after ∧
        Release man after address := by
  obtain ⟨slab, present, inCapacity, rfl⟩ := isItem
  obtain ⟨-, freed, returned, freedItem⟩ := laid.manDelete present inCapacity
  have same := sameBlocks_setSlab present freedItem.same
  refine ⟨_, returned, same, laid.of_freed present inCapacity freedItem, ?_⟩
  rintro other ⟨otherNumber, otherItem, isOther, isUsed⟩ different
  refine ⟨otherNumber, otherItem, isOther.of_sameBlocks same, ?_⟩
  have elsewhere : ¬ (otherNumber = number ∧ otherItem = item) := by
    rintro ⟨rfl, rfl⟩
    obtain ⟨otherSlab, otherPresent, -, isAddress⟩ := isOther
    rw [present, Option.some.injEq] at otherPresent
    subst otherSlab
    exact different isAddress
  rw [freedItem.flipped, if_neg elsewhere, isUsed]

end Items

/-! ## Runs of calls -/

/-- A call to the slab manager, with the address it returned. -/
inductive SlabCall where
  | getAddress (valSize : Nat) (result : Option Nat)
  | manDelete (valPtr : Nat)
  deriving DecidableEq

/-- The manager and the addresses that are handed out and not yet freed. -/
structure Ledger where
  man : Manager
  handedOut : List Nat

/-- A caller frees only addresses that are handed out. -/
inductive Ledger.Step : Ledger → SlabCall → Ledger → Prop where
  | getAddress
      {ledger : Ledger}
      {valSize : Nat}
      {result : Option Nat}
      {after : Manager}
      (returned :
        CacheBench.getAddress ledger.man valSize = .ok (result, after)) :
      Step ledger (.getAddress valSize result)
        ⟨after, result.toList ++ ledger.handedOut⟩
  | manDelete
      {ledger : Ledger}
      {valPtr : Nat}
      {after : Manager}
      (isOut : valPtr ∈ ledger.handedOut)
      (returned : CacheBench.manDelete ledger.man valPtr = .ok after) :
      Step ledger (.manDelete valPtr)
        ⟨after, ledger.handedOut.erase valPtr⟩

/-- Each address that is out is that of an item in use, and is out once. -/
structure Ledger.Ok (ledger : Ledger) : Prop where
  laid : ledger.man.Laid
  distinct : ledger.handedOut.Nodup
  inUse : ∀ address ∈ ledger.handedOut, ledger.man.InUse address

section Ledgers

variable {ledger after : Ledger} {call : SlabCall}

/-- Every call to `man_delete` for an address that is out returns. -/
theorem Ledger.Ok.release
    (ok : ledger.Ok)
    {address : Nat}
    (isOut : address ∈ ledger.handedOut) :
    ∃ after,
      CacheBench.manDelete ledger.man address = .ok after ∧
        Release ledger.man after address := by
  obtain ⟨number, item, isItem, -⟩ := ok.inUse address isOut
  exact ok.laid.release isItem

/-- What a call to `man_delete` that returned did to the items. -/
theorem Ledger.Ok.released
    (ok : ledger.Ok)
    {address : Nat}
    (isOut : address ∈ ledger.handedOut)
    {man : Manager}
    (returned : CacheBench.manDelete ledger.man address = .ok man) :
    Release ledger.man man address := by
  obtain ⟨_, same, release⟩ := ok.release isOut
  rw [returned] at same
  cases same
  exact release

/-- Every call of the caller returns. -/
theorem Ledger.Ok.returns (ok : ledger.Ok) :
    (∀ valSize, ∃ result after,
      CacheBench.getAddress ledger.man valSize = .ok (result, after)) ∧
      ∀ valPtr ∈ ledger.handedOut, ∃ after,
        CacheBench.manDelete ledger.man valPtr = .ok after := by
  constructor
  · intro valSize
    obtain ⟨result, after, returned, -⟩ := ok.laid.getAddress valSize
    exact ⟨result, after, returned⟩
  · intro valPtr isOut
    obtain ⟨after, returned, -⟩ := ok.release isOut
    exact ⟨after, returned⟩

/-- An address that is out is not returned again. -/
theorem Ledger.Ok.not_returned
    (ok : ledger.Ok)
    {address valSize : Nat}
    (isOut : address ∈ ledger.handedOut)
    (step : ledger.Step call after) :
    call ≠ .getAddress valSize (some address) := by
  rintro rfl
  cases step with
  | getAddress returned =>
      exact ((ok.laid.issued returned).inUse ok.laid).1
        (ok.inUse address isOut)

/-- Every step keeps a ledger in order. -/
theorem Ledger.Ok.step
    (ok : ledger.Ok)
    (step : ledger.Step call after) :
    after.Ok := by
  cases step with
  | @getAddress valSize result man returned =>
      have issued := ok.laid.issued returned
      have kept {address : Nat} (isOut : address ∈ ledger.handedOut) :=
        issued.inUse_kept (ok.inUse address isOut)
      cases result with
      | none =>
          exact ⟨issued.laid, ok.distinct, fun _ isOut => kept isOut⟩
      | some address =>
          obtain ⟨notInUse, inUse⟩ := issued.inUse ok.laid
          refine ⟨issued.laid, List.nodup_cons.mpr ⟨?_, ok.distinct⟩,
            List.forall_mem_cons.mpr ⟨inUse, fun _ isOut => kept isOut⟩⟩
          intro isOut
          exact notInUse (ok.inUse address isOut)
  | @manDelete valPtr man isOut returned =>
      have release := ok.released isOut returned
      refine ⟨release.laid, ok.distinct.erase valPtr, ?_⟩
      intro address isStillOut
      obtain ⟨different, wasOut⟩ :=
        ok.distinct.mem_erase_iff.mp isStillOut
      exact release.inUse_kept address (ok.inUse address wasOut) different

/-- An address stays out until it is freed, and its item stays in place. -/
theorem Ledger.Ok.step_out
    (ok : ledger.Ok)
    (step : ledger.Step call after)
    {number item address : Nat}
    (notFreed : call ≠ .manDelete address)
    (isOut : address ∈ ledger.handedOut)
    (isItem : ledger.man.ItemAt number item address) :
    address ∈ after.handedOut ∧ after.man.ItemAt number item address := by
  cases step with
  | getAddress returned =>
      exact ⟨List.mem_append_right _ isOut,
        isItem.of_sameBlocks (ok.laid.issued returned).same⟩
  | @manDelete valPtr man otherOut returned =>
      have different : address ≠ valPtr := by
        rintro rfl
        exact notFreed rfl
      exact ⟨(List.mem_erase_of_ne different).mpr isOut,
        isItem.of_sameBlocks (ok.released otherOut returned).same⟩

/--
A run that does not free an address.  Its item stays in use, the address is not
returned again, and the caller's next call returns.
-/
theorem Ledger.Ok.run_out
    {start final : Ledger}
    (ok : start.Ok)
    {number item address : Nat}
    (isOut : address ∈ start.handedOut)
    (isItem : start.man.ItemAt number item address)
    {history : List SlabCall}
    (run : Run Ledger.Step start history final)
    (notFreed : SlabCall.manDelete address ∉ history) :
    final.Ok ∧ final.man.used number item = true ∧
      ∀ valSize, SlabCall.getAddress valSize (some address) ∉ history := by
  have allowed : ∀ call ∈ history, call ≠ .manDelete address := by
    rintro call member rfl
    exact notFreed member
  let Out (ledger : Ledger) : Prop :=
    ledger.Ok ∧ address ∈ ledger.handedOut ∧
      ledger.man.ItemAt number item address
  have preserved {ledger : Ledger} {call : SlabCall} {after : Ledger}
      (out : Out ledger)
      (other : call ≠ .manDelete address)
      (step : ledger.Step call after) :
      Out after :=
    ⟨out.1.step step, out.1.step_out step other out.2.1 out.2.2⟩
  obtain ⟨finalOk, stillOut, stillItem⟩ :=
    run.invariant Out ⟨ok, isOut, isItem⟩ preserved allowed
  refine ⟨finalOk, ?_, ?_⟩
  · exact (finalOk.laid.inUse_iff stillItem).mp
      (finalOk.inUse address stillOut)
  · intro valSize again
    have notReturned :=
      run.forall_event Out
        (fun call => call ≠ .getAddress valSize (some address))
        ⟨ok, isOut, isItem⟩ preserved
        (fun out _ step => out.1.not_returned out.2.1 step) allowed
    exact notReturned _ again rfl

end Ledgers

/--
`man_delete` undoes `get_address`.  The address that was returned leads back to
its slab, and freeing it restores every status bit.  Until it is freed the slot
stays in use and is not handed out again, whatever other addresses the caller
obtains or frees.
-/
theorem free_undoes_allocate
    {man reserved : Manager}
    (laid : man.Laid)
    {valSize address : Nat}
    (returned :
      CacheBench.getAddress man valSize = .ok (some address, reserved)) :
    ∃ number slab item,
      reserved.slabs[number]? = some slab ∧
        address = slab.addr + slab.slabClass * item ∧
        man.used number item = false ∧
        reserved.used number item = true ∧
        llFind findVal reserved.slabs address = some slab ∧
        (∃ after freed,
          CacheBench.manDelete reserved address = .ok after ∧
            (∀ query other,
              after.used query other = man.used query other) ∧
            after.slabs[number]? = some freed ∧
            freed.isFull = 0) ∧
        ∀ handedOut history final,
          handedOut.Nodup → (∀ other ∈ handedOut, man.InUse other) →
          Run Ledger.Step ⟨reserved, address :: handedOut⟩ history final →
          SlabCall.manDelete address ∉ history →
            final.man.used number item = true ∧
              (∀ again,
                SlabCall.getAddress again (some address) ∉ history) ∧
              (∀ again, ∃ result after,
                CacheBench.getAddress final.man again =
                  .ok (result, after)) ∧
              ∀ other ∈ final.handedOut, ∃ after,
                CacheBench.manDelete final.man other = .ok after := by
  have issued := laid.issued returned
  obtain ⟨number, item, isItem, isFree, marked⟩ := issued.slot address rfl
  have stillItem := isItem.of_sameBlocks issued.same
  have isUsed : reserved.used number item = true := by
    simp [marked]
  obtain ⟨slab, present, inCapacity, isAddress⟩ := id stillItem
  obtain ⟨found, freed, freeing, freedItem⟩ :=
    issued.laid.manDelete present inCapacity
  rw [← isAddress] at found freeing
  refine ⟨number, slab, item, present, isAddress, isFree, isUsed, found,
    ⟨_, freed, freeing, ?_, ?_, freedItem.isOpen⟩, ?_⟩
  · intro query other
    rw [freedItem.flipped, isUsed, marked]
    by_cases same : query = number ∧ other = item
    · simp [same, isFree]
    · simp [same]
  · rw [setSlab_getElem? present, if_pos rfl]
  · intro handedOut history final distinct inUse run notFreed
    have ok : Ledger.Ok ⟨reserved, address :: handedOut⟩ := by
      have step :
          Ledger.Step ⟨man, handedOut⟩
            (.getAddress valSize (some address)) _ :=
        .getAddress returned
      exact Ledger.Ok.step ⟨laid, distinct, inUse⟩ step
    obtain ⟨finalOk, stillUsed, notAgain⟩ :=
      ok.run_out List.mem_cons_self stillItem run notFreed
    exact ⟨stillUsed, notAgain, finalOk.returns⟩

/-- A slab of the smallest class, whose slots use all status bits. -/
def smallestSlab : Slab :=
  { Slab.zeros 16 with slabClass := 64 }

theorem laid_smallestSlab : (ofSlab smallestSlab).Laid := by
  refine ⟨List.pairwise_singleton _ _, ?_, ?_, ?_⟩
  · intro slab member
    rw [List.mem_singleton.mp member]
    decide
  · intro slab member
    rw [List.mem_singleton.mp member]
    decide
  · intro slab member item past inBounds
    rw [List.mem_singleton.mp member] at past
    have allSlots : capacity smallestSlab.slabClass = statusBits := by
      decide
    omega

/-- The first address of a slab is not returned twice, unless it is freed. -/
theorem free_undoes_allocate_first :
    ∃ address reserved again after freed,
      CacheBench.getAddress (ofSlab smallestSlab) 64 =
          .ok (some address, reserved) ∧
        CacheBench.getAddress reserved 64 = .ok (again, after) ∧
        again ≠ some address ∧
        CacheBench.manDelete reserved address = .ok freed ∧
        ∀ number item,
          freed.used number item =
            (ofSlab smallestSlab).used number item := by
  have laid := laid_smallestSlab
  obtain ⟨result, reserved, returned, -, -, reservedSlot⟩ :=
    getAddress_reserves (ofSlab smallestSlab)
      (by decide : getSlabClass (ofSlab smallestSlab) 64 = 64)
  cases result with
  | none =>
      cases reservedSlot with
      | exhausted allUsed sameUsed =>
          have isUsed :=
            allUsed smallestSlab (List.mem_singleton_self _) (by decide) 0
              (by decide)
          cases isUsed
  | some address =>
      obtain ⟨number, slab, item, -, -, -, -, -,
        ⟨freed, -, freeing, restored, -⟩, runs⟩ :=
        free_undoes_allocate laid returned
      obtain ⟨again, after, second, -⟩ :=
        (laid.issued returned).laid.getAddress 64
      have run :
          Run Ledger.Step ⟨reserved, [address]⟩
            ([] ++ [.getAddress 64 again])
            ⟨after, again.toList ++ [address]⟩ :=
        .snoc .nil (.getAddress second)
      obtain ⟨-, notAgain, -⟩ :=
        runs [] _ _ List.nodup_nil (by simp) run (by simp)
      refine ⟨address, reserved, again, after, freed, returned, second, ?_,
        freeing, restored⟩
      rintro rfl
      exact notAgain 64 (by simp)

end CacheBench.Manager
