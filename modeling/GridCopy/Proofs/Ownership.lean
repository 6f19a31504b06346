import GridCopy.Plan.Ownership
import GridCopy.Proofs.Shares

/-!
# The owner of every element

Handing out the shares of a launch one after another never meets a slot that is taken and leaves
none free, so building the ownership map of a valid plan succeeds. `ownershipMap_follows_policy`
names the owner of each element.
-/

namespace GridCopy

namespace Plan

/-- The unit that the policy gives a place of the buffer to. -/
def ownerOf (plan : Plan) (offset : Nat) : Owner :=
  plan.ownerAt (plan.layout.coords offset).1 (plan.layout.coords offset).2

/-- Free slots are taken, each once, and the others stay as they are. -/
theorem claimElements_exact (owner : Owner) {offsets : List Nat} {slots : Array (Option Owner)}
    (distinct : offsets.Nodup) (free : ∀ offset ∈ offsets, slots[offset]? = some none) :
    ∃ claimed, offsets.foldlM (claimElement owner) slots = .ok claimed ∧
      ∀ offset, claimed[offset]? =
        if offset ∈ offsets then some (some owner) else slots[offset]? := by
  induction offsets generalizing slots with
  | nil => exact ⟨slots, rfl, by simp⟩
  | cons first rest ih =>
      obtain ⟨notLater, restDistinct⟩ := List.nodup_cons.mp distinct
      have firstFree := free first List.mem_cons_self
      obtain ⟨inside, empty⟩ := Array.getElem?_eq_some_iff.mp firstFree
      have taken : claimElement owner slots first = .ok (slots.set first (some owner) inside) := by
        simp [claimElement, inside, empty]
      have restFree : ∀ offset ∈ rest,
          (slots.set first (some owner) inside)[offset]? = some none := by
        intro offset member
        have other : first ≠ offset := fun same => notLater (same ▸ member)
        rw [Array.getElem?_set_ne _ other]
        exact free offset (List.mem_cons_of_mem _ member)
      obtain ⟨claimed, ran, holds⟩ := ih restDistinct restFree
      refine ⟨claimed, ?_, fun offset => ?_⟩
      · simpa [List.foldlM_cons, taken, bind, Except.bind] using ran
      · rw [holds offset]
        by_cases same : offset = first
        · subst same
          simp [notLater]
        · simp [same, Array.getElem?_set_ne _ (Ne.symm same)]

/-- One share after another: each place goes to the owner whose share lists it. -/
theorem claimShares_exact {plan : Plan} (valid : plan.Valid) {owners : List Owner}
    {slots : Array (Option Owner)} (inGrid : ∀ owner ∈ owners, plan.InGrid owner)
    (distinct : (owners.flatMap plan.elements).Nodup)
    (free : ∀ offset ∈ owners.flatMap plan.elements, slots[offset]? = some none) :
    ∃ claimed,
      (owners.map fun owner => (owner, plan.exactShare owner)).foldlM claimPartition slots =
        .ok claimed ∧
      (∀ owner ∈ owners, ∀ offset ∈ plan.elements owner, claimed[offset]? = some (some owner)) ∧
      ∀ offset, offset ∉ owners.flatMap plan.elements → claimed[offset]? = slots[offset]? := by
  induction owners generalizing slots with
  | nil => exact ⟨slots, rfl, by simp, by simp⟩
  | cons first rest ih =>
      rw [List.flatMap_cons, List.nodup_append] at distinct
      obtain ⟨firstDistinct, restDistinct, apart⟩ := distinct
      have firstFree : ∀ offset ∈ plan.elements first, slots[offset]? = some none :=
        fun offset member => free offset (List.mem_append_left _ member)
      obtain ⟨middle, ranFirst, holdsFirst⟩ :=
        claimElements_exact first firstDistinct firstFree
      have restFree : ∀ offset ∈ rest.flatMap plan.elements, middle[offset]? = some none := by
        intro offset member
        have notFirst : offset ∉ plan.elements first :=
          fun owned => apart offset owned offset member rfl
        rw [holdsFirst, if_neg notFirst]
        exact free offset (List.mem_append_right _ member)
      obtain ⟨claimed, ran, owned, kept⟩ :=
        ih (fun owner member => inGrid owner (List.mem_cons_of_mem _ member)) restDistinct restFree
      have taken : claimPartition slots (first, plan.exactShare first) = .ok middle := by
        simp only [claimPartition, valid.offsets_exact (inGrid first List.mem_cons_self), lift_ok,
          bind, Except.bind]
        exact ranFirst
      refine ⟨claimed, ?_, ?_, ?_⟩
      · simpa [List.foldlM_cons, taken, bind, Except.bind] using ran
      · intro owner member offset listed
        rcases List.mem_cons.mp member with rfl | later
        · have notRest : offset ∉ rest.flatMap plan.elements :=
            fun again => apart offset listed offset again rfl
          rw [kept offset notRest, holdsFirst, if_pos listed]
        · exact owned owner later offset listed
      · intro offset absent
        rw [List.flatMap_cons, List.mem_append, not_or] at absent
        rw [kept offset absent.2, holdsFirst, if_neg absent.1]

theorem Valid.mem_elements_ownerOf {plan : Plan} (valid : plan.Valid) {offset : Nat}
    (inside : offset < plan.layout.shape.area) :
    plan.ownerOf offset ∈ plan.ownerList ∧ offset ∈ plan.elements (plan.ownerOf offset) := by
  obtain ⟨rowInside, colInside⟩ := Layout.coords_inside inside
  have owned := valid.place_mem_elements (plan.layout.coords offset).1 (plan.layout.coords offset).2
  rw [Layout.place_coords] at owned
  exact ⟨mem_ownerList.mpr (valid.ownerAt_inGrid rowInside colInside), owned⟩

theorem Valid.ownershipMap_exact {plan : Plan} (valid : plan.Valid) :
    plan.ownershipMap = .ok ((List.range plan.layout.shape.area).map plan.ownerOf) := by
  have everyPlace := valid.elements_perm
  have free : ∀ offset ∈ plan.ownerList.flatMap plan.elements,
      (Array.replicate plan.layout.shape.area (none : Option Owner))[offset]? = some none := by
    intro offset member
    have inside := List.mem_range.mp (everyPlace.mem_iff.mp member)
    simp [inside]
  obtain ⟨claimed, ran, owned, kept⟩ := claimShares_exact valid
    (fun owner member => mem_ownerList.mp member)
    (everyPlace.nodup_iff.mpr List.nodup_range) free
  have filled : ∀ offset < plan.layout.shape.area,
      claimed[offset]? = some (some (plan.ownerOf offset)) := by
    intro offset inside
    obtain ⟨listed, holds⟩ := valid.mem_elements_ownerOf inside
    exact owned _ listed offset holds
  -- No place past the end has a slot, and a missing slot would be a place without an owner.
  have size : claimed.size = plan.layout.shape.area := by
    apply Nat.le_antisymm
    · rw [← Array.getElem?_eq_none_iff, kept _ fun member =>
        Nat.lt_irrefl _ (List.mem_range.mp (everyPlace.mem_iff.mp member))]
      simp
    · by_contra short
      have missing : claimed[claimed.size]? = none := by simp
      rw [filled _ (Nat.not_le.mp short)] at missing
      contradiction
  have complete : ∀ slot ∈ claimed.toList.zipIdx,
      ownerInSlot slot = .ok (plan.ownerOf slot.2) := by
    rintro ⟨slot, offset⟩ member
    have found : claimed[offset]? = some slot := by
      simpa using List.mem_zipIdx_iff_getElem?.mp member
    have inside : offset < plan.layout.shape.area := size ▸ (Array.getElem?_eq_some_iff.mp found).1
    rw [filled offset inside] at found
    cases found
    rfl
  have numbered : claimed.toList.zipIdx.map (fun slot => plan.ownerOf slot.2) =
      (List.range plan.layout.shape.area).map plan.ownerOf := by
    rw [List.range_eq_range', ← size, ← Array.length_toList, ← List.zipIdx_map_snd, List.map_map]
    rfl
  simp only [ownershipMap, valid.size_exact, valid.partitions_exact, lift_ok, bind, Except.bind,
    ran]
  rw [← numbered]
  exact mapM_ok complete

theorem Valid.mem_elements_iff_ownerOf {plan : Plan} (valid : plan.Valid) {owner : Owner}
    (inGrid : plan.InGrid owner) {offset : Nat} :
    offset ∈ plan.elements owner ↔ offset < plan.layout.shape.area ∧ plan.ownerOf offset = owner := by
  have decided (inside : offset < plan.layout.shape.area) :
      offset ∈ plan.elements owner ↔ owner = plan.ownerOf offset := by
    obtain ⟨rowInside, colInside⟩ := Layout.coords_inside inside
    have named := valid.mem_elements_iff inGrid rowInside colInside
    rwa [Layout.place_coords] at named
  constructor
  · intro owned
    have listed := List.mem_flatMap.mpr ⟨owner, mem_ownerList.mpr inGrid, owned⟩
    have inside := List.mem_range.mp (valid.elements_perm.mem_iff.mp listed)
    exact ⟨inside, ((decided inside).mp owned).symm⟩
  · rintro ⟨inside, rfl⟩
    exact (decided inside).mpr rfl

theorem owner_listed {plan : Plan} {row col : Nat} (rowInside : row < plan.layout.shape.rows)
    (colInside : col < plan.layout.shape.cols) :
    ((List.range plan.layout.shape.area).map plan.ownerOf)[plan.layout.place row col]? =
      some (plan.ownerAt row col) := by
  rw [List.getElem?_map, List.getElem?_range (Layout.place_lt rowInside colInside),
    Option.map_some, ownerOf, Layout.coords_place rowInside colInside]

theorem Valid.offsets_listed {plan : Plan} (valid : plan.Valid) :
    (plan.ownerList.map fun owner => (owner, plan.exactShare owner)).mapM
      (fun share => share.2.offsets) = .ok (plan.ownerList.map plan.elements) := by
  rw [List.mapM_map]
  exact mapM_ok fun owner member => valid.offsets_exact (mem_ownerList.mp member)

/-- Building the ownership map of an accepted plan succeeds. It lists one owner for each element of
the buffer: the unit that the arrangement and the vector of the policy name at its coordinates. So
the shares of the launch are disjoint and cover the buffer. -/
theorem ownershipMap_follows_policy {layout : Layout} {tile : Shape} {threads : Arrangement}
    {policy : Policy} {plan : Plan} (accepted : make layout tile threads policy = .ok plan) :
    ∃ size owners, layout.size = .ok size ∧ plan.ownershipMap = .ok owners ∧
      owners.length = size ∧
      (∀ offset < size, ∃! position : Nat × Nat,
        (position.1 < layout.shape.rows ∧ position.2 < layout.shape.cols) ∧
          layout.offset position.1 position.2 = .ok offset) ∧
      (∀ row < layout.shape.rows, ∀ col < layout.shape.cols, ∃ offset < size,
        layout.offset row col = .ok offset ∧
          owners[offset]? = some {
            tileRow := row / tile.rows
            tileCol := col / tile.cols
            unit := row % tile.rows / policy.vector.rows % threads.shape.rows +
              threads.shape.rows * (col % tile.cols / policy.vector.cols % threads.shape.cols) }) ∧
      ∃ shares listed, plan.partitions = .ok shares ∧
        shares.mapM (fun share => share.2.offsets) = .ok listed ∧
        listed.flatten.Perm (List.range size) ∧
        ∀ share ∈ shares, ∃ offsets, share.2.offsets = .ok offsets ∧
          ∀ offset, offset ∈ offsets ↔ owners[offset]? = some share.1 := by
  obtain ⟨rfl, valid⟩ := make_eq_ok_iff.mp accepted
  have sized := valid.small.trans maxElements_lt_bound.le
  refine ⟨_, _, valid.size_exact, valid.ownershipMap_exact, by simp, ?_, ?_, _, _,
    valid.partitions_exact, valid.offsets_listed, ?_, ?_⟩
  · intro offset inside
    exact Layout.existsUnique_offset sized inside
  · intro row rowInside col colInside
    have inside := Layout.place_lt rowInside colInside
    exact ⟨layout.place row col, inside, Layout.offset_inside sized rowInside colInside,
      owner_listed rowInside colInside⟩
  · exact valid.elements_perm
  · intro share member
    obtain ⟨owner, listed, rfl⟩ := List.mem_map.mp member
    have inGrid := mem_ownerList.mp listed
    refine ⟨_, valid.offsets_exact inGrid, fun offset => ?_⟩
    rw [valid.mem_elements_iff_ownerOf inGrid]
    simp [List.getElem?_eq_some_iff]

/-- Two vectors of two columns in each row of a tile, both of the same unit. -/
theorem ownershipMap_follows_policy_row_major :
    ∃ plan owners,
      make (.rowMajor ⟨4, 8⟩) ⟨2, 4⟩ ⟨⟨2, 1⟩⟩ (.vectorized ⟨1, 2⟩) = .ok plan ∧
        plan.ownershipMap = .ok owners ∧ owners.length = 32 ∧ owners[29]? = some ⟨1, 1, 1⟩ := by
  have accepted : make (.rowMajor ⟨4, 8⟩) ⟨2, 4⟩ ⟨⟨2, 1⟩⟩ (.vectorized ⟨1, 2⟩) =
      .ok ⟨⟨.rowMajor ⟨4, 8⟩, ⟨2, 4⟩⟩, ⟨⟨2, 1⟩⟩, .vectorized ⟨1, 2⟩⟩ := rfl
  obtain ⟨size, owners, sized, built, counted, -, named, -⟩ := ownershipMap_follows_policy accepted
  obtain ⟨offset, -, placed, owned⟩ := named 3 (by decide) 5 (by decide)
  cases sized
  cases placed
  exact ⟨_, owners, accepted, built, counted, owned⟩

end Plan

end GridCopy
