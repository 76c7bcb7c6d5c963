import BulkTransfer.Proofs.Pool.Filing

/-!
# What a pool makes of its history

All that matters of the past of a bucket is which slices it took in, in which order, and how many of
them it gave out again. From this history alone every reply of a pool can be foretold, and the pool
is the history without what was given out.
-/

namespace BulkTransfer

/-- What is asked of a pool. A slice that is given back may come from anywhere. -/
inductive PoolRequest where
  /-- Rent a slice of a length. -/
  | rent (length : Nat)
  /-- Give a slice back. -/
  | giveBack (slice : Slice)

/-- The bucket a request is about: a length is rounded up to a power of two, a capacity is rounded
down. Requests without bytes are about no bucket. -/
def PoolRequest.bucket? : PoolRequest → Option Nat
  | rent length => if length = 0 then none else some (Nat.clog 2 length)
  | giveBack slice => if slice.capacity = 0 then none else some slice.capacity.log2

/-- What a pool replies: the slice it rents out, if it was asked for one, and what it reports. -/
structure PoolReply where
  /-- The slice that was rented. -/
  slice? : Option Slice
  /-- Records logged. -/
  records : List PoolRecord
  deriving DecidableEq

/-- Slices that the buckets of a pool took in and gave out. -/
structure PoolHistory where
  /-- Slices that each bucket took in, in order. -/
  accepted : Nat → List Slice
  /-- Number of slices that each bucket gave out again. -/
  reuses : Nat → Nat

namespace PoolHistory

/-- The history of a pool that was not used yet. -/
def blank : PoolHistory :=
  ⟨fun _ => [], fun _ => 0⟩

/-- Number of slices that a bucket took in and has not given out again. -/
def count (history : PoolHistory) (index : Nat) : Nat :=
  (history.accepted index).length - history.reuses index

/-- Slices that a bucket took in and has not given out again. -/
def contents (history : PoolHistory) (index : Nat) : List Slice :=
  (history.accepted index).drop (history.reuses index)

/-- The history after a bucket has taken in a slice. -/
def accept (history : PoolHistory) (index : Nat) (slice : Slice) : PoolHistory :=
  { history with
    accepted := Function.update history.accepted index (history.accepted index ++ [slice]) }

/-- The history after a bucket has given out a slice. -/
def reuse (history : PoolHistory) (index : Nat) : PoolHistory :=
  { history with reuses := Function.update history.reuses index (history.reuses index + 1) }

/-- Enter what came of a request: a slice was taken in if nothing is said against it, and one was
given out if the pool says so. -/
def enter (history : PoolHistory) (request : PoolRequest) (reply : PoolReply) : PoolHistory :=
  match request, reply.records with
  | .giveBack slice, [] => history.accept slice.capacity.log2 slice
  | .rent _, [.reused index] => history.reuse index
  | _, _ => history

/-- Foretell the reply of a pool with these limits. -/
def foretell (history : PoolHistory) (limits : PoolLimits) : PoolRequest → PoolReply
  | .rent length =>
      let index := Nat.clog 2 length
      if length = 0 then
        ⟨some ⟨[], 0⟩, []⟩
      else if Pool.bucketsFor limits.maxLength ≤ index then
        ⟨some ⟨List.replicate length 0, length⟩, [.oversized length]⟩
      else
        match (history.accepted index)[history.reuses index]? with
        | none => ⟨some ⟨List.replicate length 0, 2 ^ index⟩, []⟩
        | some slice =>
            let kept := slice.bytes.take (min slice.length length)
            ⟨some ⟨kept ++ List.replicate (length - slice.length) 0, slice.capacity⟩,
              [.reused index]⟩
  | .giveBack slice =>
      let index := slice.capacity.log2
      if slice.capacity = 0 ∨ Pool.bucketsFor limits.maxLength ≤ index then
        ⟨none, [.unpoolable slice.capacity]⟩
      else if history.count index < limits.bucketCapacity then
        ⟨none, []⟩
      else
        ⟨none, [.bucketFull]⟩

/-- The pool that a history leads to. -/
def pool (history : PoolHistory) (limits : PoolLimits) : Pool :=
  ⟨limits, (List.range (Pool.bucketsFor limits.maxLength)).map history.contents⟩

end PoolHistory

namespace Pool

/-- Answer a request, and go on as another pool. -/
def serve (pool : Pool) : PoolRequest → PoolReply × Pool
  | .rent length =>
      let rental := pool.rent length
      (⟨some rental.slice, rental.records⟩, rental.pool)
  | .giveBack slice =>
      let (next, records) := pool.giveBack slice
      (⟨none, records⟩, next)

/-- A pool after requests, with its history. -/
def chronicle (pool : Pool) (history : PoolHistory) : List PoolRequest → Pool × PoolHistory
  | [] => (pool, history)
  | request :: rest =>
      let (reply, next) := pool.serve request
      next.chronicle (history.enter request reply) rest

end Pool

/-- The bytes of a slice that is used again are what it held, as far as it is wanted, and zeros. -/
theorem Slice.resize_of_le_capacity {slice : Slice} {length : Nat}
    (enough : length ≤ slice.capacity) :
    slice.resize length 0 =
      ⟨slice.bytes.take (min slice.length length) ++ List.replicate (length - slice.length) 0,
        slice.capacity⟩ := by
  have cut : slice.bytes.take (min slice.length length) = slice.bytes.take length := by
    rw [Nat.min_comm, ← List.take_take, Slice.length, List.take_length]
  rw [resize, Nat.max_eq_left enough, cut]

theorem Slice.resize_ofCapacity {capacity length : Nat} (enough : length ≤ capacity) :
    (Slice.ofCapacity capacity).resize length 0 = ⟨List.replicate length 0, capacity⟩ := by
  rw [resize, Slice.ofCapacity, Nat.max_eq_left enough, List.take_nil]
  rfl

theorem Slice.zeros_eq (length : Nat) : Slice.zeros length = ⟨List.replicate length 0, length⟩ := by
  rw [zeros, resize, empty, Nat.zero_max, List.take_nil]
  rfl

namespace PoolHistory

variable {limits : PoolLimits} {history : PoolHistory} {index : Nat}

@[simp]
theorem length_contents (history : PoolHistory) (index : Nat) :
    (history.contents index).length = history.count index := by
  rw [contents, List.length_drop, count]

@[simp]
theorem bucketCount_pool (history : PoolHistory) (limits : PoolLimits) :
    (history.pool limits).bucketCount = Pool.bucketsFor limits.maxLength := by
  rw [Pool.bucketCount, pool, List.length_map, List.length_range]

theorem getElem?_buckets_pool (history : PoolHistory) (limits : PoolLimits) (index : Nat) :
    (history.pool limits).buckets[index]? =
      if index < Pool.bucketsFor limits.maxLength then some (history.contents index) else none := by
  rw [pool, List.getElem?_map]
  split
  · next inside => rw [List.getElem?_range inside, Option.map_some]
  · next outside =>
      rw [List.getElem?_eq_none (by simpa using Nat.le_of_not_lt outside), Option.map_none]

theorem getElem?_buckets_pool_eq_some {bucket : List Slice}
    (found : (history.pool limits).buckets[index]? = some bucket) :
    index < Pool.bucketsFor limits.maxLength ∧ history.contents index = bucket := by
  rw [getElem?_buckets_pool] at found
  split at found
  · next inside => exact ⟨inside, Option.some.inj found⟩
  · cases found

theorem le_of_getElem?_buckets_pool
    (missing : (history.pool limits).buckets[index]? = none) :
    Pool.bucketsFor limits.maxLength ≤ index := by
  rw [getElem?_buckets_pool] at missing
  split at missing
  · cases missing
  · next outside => exact Nat.le_of_not_lt outside

theorem setBucket_pool {later : PoolHistory} {bucket : List Slice}
    (changed : later.contents index = bucket)
    (kept : ∀ other, other ≠ index → later.contents other = history.contents other) :
    (history.pool limits).setBucket index bucket = later.pool limits := by
  refine congrArg (Pool.mk limits) (List.ext_getElem? fun other => ?_)
  have before := history.getElem?_buckets_pool limits other
  have after := later.getElem?_buckets_pool limits other
  have count := history.bucketCount_pool limits
  rw [Pool.bucketCount] at count
  rw [List.getElem?_set, count, before]
  refine Eq.trans ?_ after.symm
  by_cases same : index = other
  · rw [if_pos same, ← same, changed]
  · rw [if_neg same, kept other (Ne.symm same)]

theorem contents_accept_self (history : PoolHistory) (index : Nat) (slice : Slice)
    (bound : history.reuses index ≤ (history.accepted index).length) :
    (history.accept index slice).contents index = history.contents index ++ [slice] := by
  simp only [contents, accept, Function.update_self]
  exact List.drop_append_of_le_length bound

theorem contents_accept_of_ne (history : PoolHistory) {index other : Nat} (slice : Slice)
    (differ : other ≠ index) :
    (history.accept index slice).contents other = history.contents other := by
  simp only [contents, accept, Function.update_of_ne differ]

theorem contents_reuse_self (history : PoolHistory) (index : Nat) :
    (history.reuse index).contents index = (history.contents index).tail := by
  simp only [contents, reuse, Function.update_self, List.tail_drop]

theorem contents_reuse_of_ne (history : PoolHistory) {index other : Nat}
    (differ : other ≠ index) : (history.reuse index).contents other = history.contents other := by
  simp only [contents, reuse, Function.update_of_ne differ]

theorem head?_contents (history : PoolHistory) (index : Nat) :
    (history.contents index).head? = (history.accepted index)[history.reuses index]? := by
  rw [contents, List.head?_drop]

/-- No bucket gave out more than it took in; buckets that a pool does not have took in nothing; and
what a bucket took in is large enough for all its requests. -/
structure Sound (history : PoolHistory) (limits : PoolLimits) : Prop where
  /-- A bucket gives out what it took in. -/
  reuses_le : ∀ index, history.reuses index ≤ (history.accepted index).length
  /-- Only buckets that there are take in slices. -/
  missing : ∀ index, Pool.bucketsFor limits.maxLength ≤ index → history.accepted index = []
  /-- Slices are large enough for the bucket they are in. -/
  large : ∀ index, ∀ slice ∈ history.accepted index, 2 ^ index ≤ slice.capacity

namespace Sound

theorem blank (limits : PoolLimits) : PoolHistory.blank.Sound limits :=
  ⟨fun _ => Nat.le_refl 0, fun _ _ => rfl, fun _ _ member => by cases member⟩

theorem accept (sound : history.Sound limits) {slice : Slice}
    (inside : slice.capacity.log2 < Pool.bucketsFor limits.maxLength)
    (some_memory : slice.capacity ≠ 0) :
    (history.accept slice.capacity.log2 slice).Sound limits := by
  refine ⟨fun index => ?_, fun index outside => ?_, fun index other member => ?_⟩
  · simp only [PoolHistory.accept, Function.update_apply]
    split
    · next same =>
        rw [List.length_append, ← same]
        exact Nat.le_add_right_of_le (sound.reuses_le index)
    · exact sound.reuses_le index
  · have differ : index ≠ slice.capacity.log2 := Nat.ne_of_gt (Nat.lt_of_lt_of_le inside outside)
    simpa only [PoolHistory.accept, Function.update_of_ne differ] using sound.missing index outside
  · simp only [PoolHistory.accept, Function.update_apply] at member
    split at member
    · next same =>
        subst same
        rcases List.mem_append.mp member with old | new
        · exact sound.large _ other old
        · rw [List.mem_singleton.mp new]
          exact Nat.log2_self_le some_memory
    · exact sound.large index other member

theorem reuse (sound : history.Sound limits) {slice : Slice} {rest : List Slice}
    (held : history.contents index = slice :: rest) : (history.reuse index).Sound limits := by
  refine ⟨fun other => ?_, sound.missing, sound.large⟩
  have some_left : 0 < history.count index := by
    rw [← length_contents, held]
    exact Nat.succ_pos _
  simp only [PoolHistory.reuse, Function.update_apply]
  split
  · next same =>
      rw [same]
      rw [count] at some_left
      omega
  · exact sound.reuses_le other

end Sound

/-- A history foretells how the pool that it leads to serves a request for a slice. -/
theorem Sound.serve_rent (sound : history.Sound limits) (length : Nat) :
    let (reply, next) := (history.pool limits).serve (.rent length)
    reply = history.foretell limits (.rent length) ∧
      (history.enter (.rent length) reply).Sound limits ∧
      next = (history.enter (.rent length) reply).pool limits := by
  rcases (history.pool limits).rent_cases length with
    ⟨rfl, rental⟩ | ⟨sizeClass, serving, cases_left⟩
  · rw [Pool.serve, rental]
    exact ⟨rfl, sound, rfl⟩
  · have some_wanted : length ≠ 0 := SizeClass.ne_zero_of_serving serving
    cases serving.symm.trans (SizeClass.serving?_of_ne_zero some_wanted)
    have rounded : length ≤ 2 ^ Nat.clog 2 length := Nat.le_pow_clog Nat.one_lt_two length
    have next_out := history.head?_contents (Nat.clog 2 length)
    rw [foretell, if_neg some_wanted]
    rcases cases_left with ⟨missing, rental⟩ | ⟨found, rental⟩ | ⟨slice, rest, found, rental⟩
    · have outside := le_of_getElem?_buckets_pool missing
      rw [Pool.serve, rental, if_pos outside]
      refine ⟨?_, sound, rfl⟩
      rw [Slice.zeros_eq]
    · obtain ⟨inside, vacant⟩ := getElem?_buckets_pool_eq_some found
      rw [vacant, List.head?_nil] at next_out
      rw [Pool.serve, rental, if_neg (Nat.not_le.mpr inside), ← next_out]
      refine ⟨?_, sound, rfl⟩
      rw [SizeClass.capacity_eq, Slice.resize_ofCapacity rounded]
    · obtain ⟨inside, held⟩ := getElem?_buckets_pool_eq_some found
      rw [held, List.head?_cons] at next_out
      have member : slice ∈ history.accepted (Nat.clog 2 length) :=
        List.mem_of_getElem? next_out.symm
      have enough : length ≤ slice.capacity := Nat.le_trans rounded (sound.large _ slice member)
      have rest_left := history.contents_reuse_self (Nat.clog 2 length)
      rw [held, List.tail_cons] at rest_left
      rw [Pool.serve, rental, if_neg (Nat.not_le.mpr inside), ← next_out]
      refine ⟨?_, sound.reuse held, ?_⟩
      · rw [Slice.resize_of_le_capacity enough]
      · exact setBucket_pool rest_left fun other differ => history.contents_reuse_of_ne differ

theorem Sound.serve_giveBack (sound : history.Sound limits) (slice : Slice) :
    let (reply, next) := (history.pool limits).serve (.giveBack slice)
    reply = history.foretell limits (.giveBack slice) ∧
      (history.enter (.giveBack slice) reply).Sound limits ∧
      next = (history.enter (.giveBack slice) reply).pool limits := by
  rw [foretell]
  rcases (history.pool limits).giveBack_cases slice with
    ⟨missing, step⟩ | ⟨sizeClass, bucket, filing, found, ending⟩
  · have dropped :
        slice.capacity = 0 ∨ Pool.bucketsFor limits.maxLength ≤ slice.capacity.log2 :=
      or_iff_not_imp_left.mpr fun some_memory =>
        le_of_getElem?_buckets_pool (missing _ (SizeClass.filing?_of_ne_zero some_memory))
    rw [Pool.serve, step, if_pos dropped]
    exact ⟨rfl, sound, rfl⟩
  · have some_memory : slice.capacity ≠ 0 := SizeClass.ne_zero_of_filing filing
    cases filing.symm.trans (SizeClass.filing?_of_ne_zero some_memory)
    obtain ⟨inside, held⟩ := getElem?_buckets_pool_eq_some found
    rw [← held, length_contents] at ending
    rw [Pool.serve, if_neg (not_or.mpr ⟨some_memory, Nat.not_le.mpr inside⟩)]
    rcases ending with ⟨room, step⟩ | ⟨full, step⟩
    · have room : history.count slice.capacity.log2 < limits.bucketCapacity := room
      have taken_in :=
        history.contents_accept_self slice.capacity.log2 slice (sound.reuses_le _)
      rw [step, if_pos room]
      refine ⟨rfl, sound.accept inside some_memory, ?_⟩
      exact setBucket_pool taken_in fun _ differ => history.contents_accept_of_ne slice differ
    · have full : limits.bucketCapacity ≤ history.count slice.capacity.log2 := full
      rw [step, if_neg (Nat.not_lt.mpr full)]
      exact ⟨rfl, sound, rfl⟩

/-- A history foretells how the pool that it leads to answers, and goes on with that pool. -/
theorem Sound.serve (sound : history.Sound limits) (request : PoolRequest) :
    let (reply, next) := (history.pool limits).serve request
    reply = history.foretell limits request ∧
      (history.enter request reply).Sound limits ∧
      next = (history.enter request reply).pool limits := by
  cases request with
  | rent length => exact sound.serve_rent length
  | giveBack slice => exact sound.serve_giveBack slice

/-- A history foretells a whole run: what it leads to after further requests is the pool then. -/
theorem Sound.chronicle (sound : history.Sound limits) (requests : List PoolRequest) :
    let (current, later) := (history.pool limits).chronicle history requests
    later.Sound limits ∧ current = later.pool limits := by
  induction requests generalizing history with
  | nil => exact ⟨sound, rfl⟩
  | cons request rest ih =>
      have step := sound.serve request
      rw [Pool.chronicle]
      rcases answer : (history.pool limits).serve request with ⟨reply, next⟩
      rw [answer] at step
      obtain ⟨-, later, rfl⟩ := step
      exact ih later

theorem create_eq_pool_blank (room : 0 < limits.bucketCapacity) :
    Pool.create limits = .ok (blank.pool limits) := by
  have empty : (List.range (Pool.bucketsFor limits.maxLength)).map blank.contents =
      List.replicate (List.range (Pool.bucketsFor limits.maxLength)).length [] :=
    List.map_eq_replicate_iff.mpr fun _ _ => rfl
  rw [Pool.create, if_neg (Nat.ne_of_gt room), pool, empty, List.length_range]

theorem Sound.pooledCount_pool (sound : history.Sound limits) (index : Nat) :
    (history.pool limits).pooledCount index = history.count index := by
  rw [Pool.pooledCount, getElem?_buckets_pool]
  split
  · exact history.length_contents index
  · next outside =>
      have nothing := sound.missing index (Nat.le_of_not_lt outside)
      rw [count, nothing]
      exact (Nat.zero_sub _).symm

/-- A request changes no bucket but the one it is about. -/
theorem contents_enter_of_bucket?_ne {request : PoolRequest}
    (elsewhere : request.bucket? ≠ some index) :
    (history.enter request (history.foretell limits request)).contents index =
      history.contents index := by
  cases request with
  | rent length =>
      rw [PoolRequest.bucket?] at elsewhere
      rw [foretell]
      split
      · rfl
      · next some_wanted =>
          rw [if_neg some_wanted] at elsewhere
          have differ : index ≠ Nat.clog 2 length := fun same => elsewhere (same ▸ rfl)
          split
          · rfl
          · split
            · rfl
            · exact history.contents_reuse_of_ne differ
  | giveBack slice =>
      rw [PoolRequest.bucket?] at elsewhere
      rw [foretell]
      split
      · rfl
      · next pooled =>
          rw [if_neg (not_or.mp pooled).1] at elsewhere
          have differ : index ≠ slice.capacity.log2 := fun same => elsewhere (same ▸ rfl)
          split
          · exact history.contents_accept_of_ne slice differ
          · rfl

end PoolHistory

/-- Whatever was asked of a pool: each bucket holds just what it took in, in order, without as many
of the first slices as it gave out, which were no more than that; the history foretells every
further reply; and what the pool becomes is told by the history with that reply, so that a request
leaves all buckets alone but the one it is about. -/
theorem Pool.eq_pool_of_chronicle (limits : PoolLimits) (room : 0 < limits.bucketCapacity) :
    ∃ pool, Pool.create limits = .ok pool ∧ ∀ requests,
      let (current, history) := pool.chronicle .blank requests
      (∀ index, history.reuses index ≤ (history.accepted index).length) ∧
      current = history.pool limits ∧
      (∀ index, current.pooledCount index =
        (history.accepted index).length - history.reuses index) ∧
      ∀ request,
        let (reply, next) := current.serve request
        reply = history.foretell limits request ∧
        next = (history.enter request reply).pool limits ∧
        ∀ index, request.bucket? ≠ some index → next.buckets[index]? = current.buckets[index]? := by
  refine ⟨_, PoolHistory.create_eq_pool_blank room, fun requests => ?_⟩
  have run := (PoolHistory.Sound.blank limits).chronicle requests
  rcases ending : (PoolHistory.blank.pool limits).chronicle .blank requests with
    ⟨current, history⟩
  rw [ending] at run
  obtain ⟨sound, rfl⟩ := run
  refine ⟨sound.reuses_le, rfl, sound.pooledCount_pool, fun request => ?_⟩
  have step := sound.serve request
  rcases answer : (history.pool limits).serve request with ⟨reply, next⟩
  rw [answer] at step
  obtain ⟨rfl, -, rfl⟩ := step
  refine ⟨rfl, rfl, fun index elsewhere => ?_⟩
  simp only [PoolHistory.getElem?_buckets_pool, PoolHistory.contents_enter_of_bucket?_ne elsewhere]

/-- Buckets up to capacity 4 that hold one slice each. A foreign slice of capacity 6 serves a
request of 4 bytes, which are the two it holds and two zeros, and comes back with five bytes to
serve a request of 3; the slice of capacity 7 that was given back in between is refused. -/
theorem Pool.eq_pool_of_chronicle_foreign :
    0 < 1 ∧ ∃ pool, Pool.create ⟨4, 1⟩ = .ok pool ∧
      let (current, history) := pool.chronicle .blank
        [.giveBack ⟨[8, 9], 6⟩, .giveBack ⟨[5], 7⟩, .rent 4, .giveBack ⟨[1, 2, 3, 4, 5], 6⟩]
      history.accepted 2 = [⟨[8, 9], 6⟩, ⟨[1, 2, 3, 4, 5], 6⟩] ∧ history.reuses 2 = 1 ∧
      current.pooledCount 2 = 1 ∧
      (current.serve (.rent 3)).1 = ⟨some ⟨[1, 2, 3], 6⟩, [.reused 2]⟩ := by
  obtain ⟨pool, created, foretold⟩ := Pool.eq_pool_of_chronicle ⟨4, 1⟩ Nat.one_pos
  cases created
  obtain ⟨-, -, count, reply⟩ := foretold
    [.giveBack ⟨[8, 9], 6⟩, .giveBack ⟨[5], 7⟩, .rent 4, .giveBack ⟨[1, 2, 3, 4, 5], 6⟩]
  refine ⟨Nat.one_pos, _, rfl, by decide, by decide, (count 2).trans (by decide), ?_⟩
  exact (reply (.rent 3)).1.trans (by decide)

end BulkTransfer
