import TaskKernel.Proofs.Heap.Claims
import TaskKernel.Proofs.Heap.Sound

namespace TaskKernel

variable {c : Context} {a n : Nat}

namespace Machine

variable {m m' : Machine} {h h' : History} {config : Config} {o o₀ : Holder}
  {region : Heap.Region} {live : List Heap.Allocation} {holder : Nat → Holder}

/-- The live allocations of the kernel heap, each with its holder. -/
structure Tenancy (region : Heap.Region) (m : Machine) (h : History)
    (live : List Heap.Allocation) (holder : Nat → Holder) : Prop where
  start : m.kernel.config.arenaStart = region.start
  length : m.kernel.config.arenaSize = region.length
  sound : Heap.Sound region m.system.prepareHeap.kernel.heap m.kernel.memory live
  held {o : Holder} {a n : Nat} : m.Claims h o a n →
    ∃ x ∈ live, x.address = a ∧ n ≤ x.size ∧ holder a = o

namespace Tenancy

/-- The heap and the memory are the same, and so are the allocations. -/
theorem sound_of_storage (t : Tenancy region m h live holder)
    (storage : m'.kernel.storage = m.kernel.storage) (holder' : Nat → Holder)
    (held : ∀ {o a n}, m'.Claims h' o a n →
      ∃ x ∈ live, x.address = a ∧ n ≤ x.size ∧ holder' a = o) :
    Tenancy region m' h' live holder' := by
  have config := Kernel.config_of_storage storage
  have heap := Kernel.heap_of_storage (System.prepareHeap_of_storage storage)
  refine ⟨config ▸ t.start, config ▸ t.length, ?_, held⟩
  rw [heap, Kernel.memory_of_storage storage]
  exact t.sound

theorem keep (t : Tenancy region m h live holder)
    (storage : m'.kernel.storage = m.kernel.storage)
    (claims : ∀ {o a n}, m'.Claims h' o a n → m.Claims h o a n) :
    Tenancy region m' h' live holder :=
  t.sound_of_storage storage holder fun new => t.held (claims new)

/-- An allocation changes hands. -/
theorem transfer {b k : Nat} (o₁ : Holder) (t : Tenancy region m h live holder)
    (storage : m'.kernel.storage = m.kernel.storage) (old : m.Claims h o₀ b k)
    (claims : ∀ {o a n}, m'.Claims h' o a n → m.Claims h o a n ∨ (o = o₁ ∧ a = b ∧ n ≤ k))
    (gone : ∀ n, ¬ m'.Claims h' o₀ b n) :
    Tenancy region m' h' live fun a => if a = b then o₁ else holder a := by
  obtain ⟨x, hx, address, room, hold⟩ := t.held old
  refine t.sound_of_storage storage _ fun {o a n} new => ?_
  rcases claims new with still | ⟨rfl, rfl, less⟩
  · obtain ⟨y, hy, address', room', hold'⟩ := t.held still
    refine ⟨y, hy, address', room', ?_⟩
    rw [if_neg]
    · exact hold'
    · intro he
      subst he
      cases hold.symm.trans hold'
      exact gone n new
  · exact ⟨x, hx, address, Nat.le_trans less room, if_pos rfl⟩

end Tenancy

structure UsesHeap (m : Machine) (h : History) (m' : Machine) (h' : History) (c : Context)
    (task : HeapTask) (r : HeapResult) : Prop where
  here : m.stageOf c = some (.useHeap task)
  calling : ∃ call, h.calling c = some call ∧ call.Seeks (.heap task)
  used : m.system.useHeap task = (m'.system, .ok r)
  after : m'.stageOf c = some (.enter (.leaveHeap task r))
  others (c' : Context) : c' ≠ c → m'.stageOf c' = m.stageOf c'
  same : h' = h

inductive Stores (m : Machine) (h : History) (m' : Machine) (h' : History) : Prop where
  | rests (storage : m'.kernel.storage = m.kernel.storage)
      (idle : ∀ c task, m.stageOf c = some (.useHeap task) → m'.stageOf c = m.stageOf c)
  | uses {c : Context} {task : HeapTask} {r : HeapResult}
      (uses : UsesHeap m h m' h' c task r)
  | copies {c : Context} {q : Nat} {r : Ring} {payload : List UInt8}
      (here : m.stageOf c = some (.copyIn q r payload))
      (after : m'.stageOf c = some (.enter (.commitAdd q)))
      (kernel : m'.kernel = { m.kernel with memory := r.store m.kernel.memory payload })
      (idle : ∀ c task, m.stageOf c = some (.useHeap task) → m'.stageOf c = m.stageOf c)
      (same : h' = h)
  | writes (a : Nat) (bytes : List UInt8) (may : m.MayWrite h a bytes.length)
      (write : m' = m.write a bytes) (same : h' = h)

theorem Change.stores (run : Run config m h) (change : Change m h m' h') : Stores m h m' h' := by
  have others : ∀ {stage : Option Stage},
      (∀ c, m'.stageOf c = if c = m.context then stage else m.stageOf c) →
      (∀ task, m.stageOf m.context ≠ some (.useHeap task)) →
      ∀ c task, m.stageOf c = some (.useHeap task) → m'.stageOf c = m.stageOf c := by
    intro stage stages free c task here
    rw [stages, if_neg]
    intro he
    subst he
    exact free task here
  cases change with
  | @code _ stage next move here ran goes stages moves =>
    have after := (stages _).trans (if_pos rfl)
    cases stage with
    | useHeap task =>
      have conforms := run.conforms m.context
      rw [here] at conforms
      rcases conforms.stage with ⟨-, he, -⟩ | ⟨call, calling, stays⟩
      · cases he
      · simp only [Stage.run] at ran
        split at ran
        · rename_i s r used
          cases ran
          cases moves
          exact .uses ⟨here, ⟨call, calling, Call.seeks_of_useHeap stays⟩, used, after,
            fun c other => (stages c).trans (if_neg other), rfl⟩
        · cases ran
          cases moves
    | copyIn q r payload =>
      have kernel : m'.kernel = { m.kernel with memory := r.store m.kernel.memory payload } :=
        (congrArg (·.1.kernel) ran).symm
      have goto : move = .goto (.enter (.commitAdd q)) := (congrArg Prod.snd ran).symm
      subst goto
      cases moves
      exact .copies here after kernel
        (others stages fun task he => by rw [here] at he; cases he) rfl
    | _ =>
      exact .rests (Stage.storage_of_run ran rfl)
        (others stages fun task he => by rw [here] at he; cases he)
  | ran here ran system stages =>
    refine .rests ?_ (others stages fun task he => by rw [here] at he; cases he)
    rw [kernel_of_left system]
    exact Section.storage_of_run ran
  | called call legal here system stages =>
    exact .rests (congrArg (·.kernel.storage) system)
      (others stages fun task he => by rw [here] at he; cases he)
  | returned here kernel cpu stages =>
    exact .rests (congrArg Kernel.storage kernel)
      (others stages fun task he => by rw [here] at he; cases he)
  | entered here kernel cpu stages =>
    refine .rests (congrArg Kernel.storage kernel) fun c task he => ?_
    rw [stages, if_neg]
    intro found
    obtain ⟨rfl, -⟩ := found
    rw [here] at he
    cases he
  | dispatched kernel started cpu stages =>
    refine .rests ?_ fun c _ _ => stages c
    rw [kernel]
    exact m.kernel.storage_dispatch
  | launched here booting kernel cpu stages =>
    refine .rests ?_ fun c _ _ => stages c
    rw [kernel]
    exact m.kernel.booted.storage_dispatch
  | idled here system stages =>
    refine .rests (congrArg (·.kernel.storage) system) fun c task he => ?_
    rw [stages, if_neg]
    intro he
    subst he
    rw [here] at he
    cases he
  | quiet kernel cpu stages => exact .rests (congrArg Kernel.storage kernel) fun c _ _ => stages c
  | wrote a bytes may => exact .writes a bytes may rfl rfl

namespace Tenancy

/-- The heap has been used, so that it stays as it is. -/
theorem of_sound {live' : List Heap.Allocation} {holder' : Nat → Holder}
    (t : Tenancy region m h live holder) (config : m'.kernel.config = m.kernel.config)
    (sound : Heap.Sound region m'.system.kernel.heap m'.system.kernel.memory live')
    (held : ∀ {o a n}, m'.Claims h' o a n →
      ∃ x ∈ live', x.address = a ∧ n ≤ x.size ∧ holder' a = o) :
    Tenancy region m' h' live' holder' := by
  refine ⟨config ▸ t.start, config ▸ t.length, ?_, held⟩
  rw [System.prepareHeap_of_hasRegion sound.hasRegion]
  exact sound

theorem of_rests (t : Tenancy region m h live holder) (run : Run config m h)
    (change : Change m h m' h') (storage : m'.kernel.storage = m.kernel.storage)
    (idle : ∀ c task, m.stageOf c = some (.useHeap task) → m'.stageOf c = m.stageOf c) :
    ∃ holder', Tenancy region m' h' live holder' := by
  by_cases gains : ∃ o a n, Gains m h m' h' o a n
  · obtain ⟨o, a, n, gain⟩ := gains
    obtain ⟨o₀, k, old, less, gone⟩ := gain.taken
    refine ⟨_, t.transfer o storage old (fun claims => ?_) gone⟩
    refine (change.claims run idle claims).imp_right fun gain' => ?_
    obtain ⟨rfl, rfl, rfl⟩ := gain.unique gain'
    exact ⟨rfl, rfl, less⟩
  · refine ⟨holder, t.keep storage fun claims => ?_⟩
    exact (change.claims run idle claims).resolve_right fun gain => gains ⟨_, _, _, gain⟩

/-- Bytes were stored in an allocation or outside the heap. -/
theorem of_store (t : Tenancy region m h live holder) (run : Run config m h)
    (change : Change m h m' h') (same : h' = h)
    (idle : ∀ c task, m.stageOf c = some (.useHeap task) → m'.stageOf c = m.stageOf c)
    {memory : Memory} (kernel : m'.kernel = { m.kernel with memory })
    (stored : ∀ c, region.start ≤ c → c < region.start + region.length →
      (∀ x ∈ live, ¬ x.Covers c) → memory.get c = m.kernel.memory.get c) :
    Tenancy region m' h' live holder := by
  refine ⟨?_, ?_, ?_, fun claims => t.held ?_⟩
  · rw [kernel]
    exact t.start
  · rw [kernel]
    exact t.length
  · have after : m'.system.kernel = { m.system.kernel with memory } := kernel
    have sound := t.sound.store stored
    rw [System.prepareHeap_heap] at sound ⊢
    rw [kernel, after]
    exact sound
  · exact (change.claims run idle claims).resolve_right fun gain => gain.news same

end Tenancy

namespace UsesHeap

variable {task : HeapTask} {r : HeapResult}

/-- A claim is new with an allocation only, and what the call held before is gone. -/
theorem claims (uses : UsesHeap m h m' h' c task r) (claims : m'.Claims h' o a n) :
    (m.Claims h o a n ∧ o ≠ .call c) ∨ (o = .call c ∧ r = .allocated a ∧ n = task.size) := by
  have same := uses.same
  subst same
  cases claims with
  | application owned => exact .inl ⟨.application owned, by simp⟩
  | queue ring =>
    have ran : (Stage.useHeap task).run m.system =
        (m'.system, .goto (.enter (.leaveHeap task r))) := by
      simp only [Stage.run, uses.used]
    have queues := Kernel.queues_of_objects (Kernel.objects_of_bare (Stage.frame_of_run ran).1)
    exact .inl ⟨.queue ((Kernel.ring_of_queues queues _).symm.trans ring), by simp⟩
  | @call c' stage call _ _ here calling carries =>
    by_cases mine : c' = c
    · subst mine
      cases uses.after.symm.trans here
      cases carries with
      | back before => cases before
      | leaves => exact .inr ⟨rfl, rfl, rfl⟩
    · exact .inl ⟨.call ((uses.others c' mine).symm.trans here) calling carries,
        fun he => mine (Holder.call.inj he)⟩

/-- An operation that gives out nothing leaves every holder what it holds. -/
theorem stays (uses : UsesHeap m h m' h' c task r) (t : Tenancy region m h live holder)
    (config : m'.kernel.config = m.kernel.config)
    (sound : Heap.Sound region m'.kernel.heap m'.kernel.memory live)
    (nothing : ∀ a, r ≠ .allocated a) : Tenancy region m' h' live holder := by
  refine t.of_sound config sound fun claims => ?_
  rcases uses.claims claims with ⟨still, -⟩ | ⟨-, new, -⟩
  · exact t.held still
  · exact absurd new (nothing _)

/-- The new allocation is the call's, and nobody else's. -/
theorem grows (uses : UsesHeap m h m' h' c task r) (t : Tenancy region m h live holder)
    (config : m'.kernel.config = m.kernel.config)
    (sound : Heap.Sound region m'.kernel.heap m'.kernel.memory (⟨a, task.size⟩ :: live))
    (result : r = .allocated a) :
    Tenancy region m' h' (⟨a, task.size⟩ :: live) fun b => if b = a then .call c else holder b := by
  refine t.of_sound config sound fun claims => ?_
  rcases uses.claims claims with ⟨still, -⟩ | ⟨rfl, new, rfl⟩
  · obtain ⟨x, hx, rfl, room, hold⟩ := t.held still
    refine ⟨x, List.mem_cons_of_mem _ hx, rfl, room, ?_⟩
    rw [if_neg]
    · exact hold
    · intro he
      have fresh := (List.nodup_cons.mp sound.nodup).1
      exact fresh (List.mem_map.mpr ⟨x, hx, he⟩)
  · cases result.symm.trans new
    exact ⟨_, List.mem_cons_self, rfl, Nat.le_refl _, if_pos rfl⟩

/-- Only the call that gives an allocation back counted on it. -/
theorem shrinks (uses : UsesHeap m h m' h' c (.free a) r) (t : Tenancy region m h live holder)
    (config : m'.kernel.config = m.kernel.config) (mine : holder a = .call c)
    (sound : Heap.Sound region m'.kernel.heap m'.kernel.memory (live.filter (·.address ≠ a)))
    (nothing : ∀ a, r ≠ .allocated a) :
    Tenancy region m' h' (live.filter (·.address ≠ a)) holder := by
  refine t.of_sound config sound fun claims => ?_
  rcases uses.claims claims with ⟨still, other⟩ | ⟨-, new, -⟩
  · obtain ⟨y, hy, rfl, room, hold⟩ := t.held still
    refine ⟨y, List.mem_filter.mpr ⟨hy, decide_eq_true fun he => other ?_⟩, rfl, room, hold⟩
    rw [← hold, he, mine]
  · exact absurd new (nothing _)

/-- A use of the heap keeps the allocations apart and their bytes. -/
theorem tenancy (uses : UsesHeap m h m' h' c task r) (t : Tenancy region m h live holder) :
    (∃ live' holder', Tenancy region m' h' live' holder') ∧
      ∀ x ∈ live, ∀ b, x.Covers b → m'.kernel.memory.get b = m.kernel.memory.get b := by
  have config := m.system.prepareHeap_config
  have before : m.system.prepareHeap.kernel.memory = m.kernel.memory :=
    m.system.prepareHeap_memory
  have sound : Heap.Sound region m.system.prepareHeap.kernel.heap
      m.system.prepareHeap.kernel.memory live := before ▸ t.sound
  cases System.uses_of_useHeap uses.used with
  | @allocates _ _ a _ outcome keeps result =>
    subst outcome
    have after := sound.alloc task.size
    have memory : m'.kernel.memory = _ := keeps.memory
    rcases after.sound with ⟨b, hb, larger⟩ | ⟨he, -⟩
    · cases result.symm.trans hb
      refine ⟨⟨_, _, uses.grows t (keeps.config.trans config)
        (keeps.heap ▸ keeps.memory ▸ larger) rfl⟩, fun x hx c covers => ?_⟩
      rw [memory, after.frame x hx c covers, before]
    · cases result.symm.trans he
  | fails outcome keeps result =>
    subst outcome
    have after := sound.alloc task.size
    have memory : m'.kernel.memory = _ := keeps.memory
    rcases after.sound with ⟨b, hb, -⟩ | ⟨-, same⟩
    · cases result.symm.trans hb
    · refine ⟨⟨_, _, uses.stays t (keeps.config.trans config)
        (keeps.heap ▸ keeps.memory ▸ same) (by simp)⟩, fun x hx c covers => ?_⟩
      rw [memory, after.frame x hx c covers, before]
  | @frees _ a _ _ outcome keeps nothing =>
    subst outcome
    obtain ⟨call, calling, seeks⟩ := uses.calling
    cases seeks
    obtain ⟨x, hx, rfl, -, mine⟩ := t.held (.call uses.here calling (.back rfl))
    obtain ⟨-, smaller, frame⟩ := sound.free (List.mem_map_of_mem hx)
    have memory : m'.kernel.memory = _ := keeps.memory
    refine ⟨⟨_, _, uses.shrinks t (keeps.config.trans config) mine
      (keeps.heap ▸ keeps.memory ▸ smaller) nothing⟩, fun y hy c covers => ?_⟩
    rw [memory, frame y hy c covers, before]
  | walks same =>
    have heap := Kernel.heap_of_storage same
    have memory : m'.kernel.memory = _ := Kernel.memory_of_storage same
    refine ⟨⟨_, _, uses.stays t ((Kernel.config_of_storage same).trans config)
      (heap ▸ Kernel.memory_of_storage same ▸ sound) (by simp)⟩, fun x hx c covers => ?_⟩
    rw [memory, before]

end UsesHeap

inductive RingKept (m : Machine) (h : History) (m' : Machine) (h' : History) (q : Nat)
    (r : Ring) : Prop where
  | copies {c : Context} {payload : List UInt8} (here : m.stageOf c = some (.copyIn q r payload))
      (after : m'.stageOf c = some (.enter (.commitAdd q)))
      (kernel : m'.kernel = { m.kernel with memory := r.store m.kernel.memory payload })
      (same : h' = h)
  | rests (kept : ∀ b, r.base ≤ b → b < r.base + r.capacity →
      m'.kernel.memory.get b = m.kernel.memory.get b)

namespace Tenancy

variable {q : Nat} {r : Ring}

/-- The allocation of a ring is no other holder's. -/
theorem apart (t : Tenancy region m h live holder) (ring : m.kernel.ring q = some r)
    (claims : m.Claims h o a n) (other : o ≠ .queue q) {b : Nat} (lower : r.base ≤ b)
    (upper : b < r.base + r.capacity) : ¬ (a ≤ b ∧ b < a + n) := by
  intro found
  obtain ⟨lower', upper'⟩ := found
  obtain ⟨x, hx, address, room, mine⟩ := t.held (.queue ring)
  obtain ⟨y, hy, address', room', hold⟩ := t.held claims
  have same := t.sound.eq_of_covers hx hy (c := b) ⟨by omega, by omega⟩ ⟨by omega, by omega⟩
  subst same
  rw [address] at address'
  subst address'
  exact other (hold.symm.trans mine)

/-- The application stores bytes where it holds memory, or outside the region. -/
theorem owned_of_may {b : Nat} (t : Tenancy region m h live holder) (may : m.MayWrite h a n)
    (lower : a ≤ b) (upper : b < a + n) :
    (∃ x k, m.Claims h .application x k ∧ x ≤ b ∧ b < x + k) ∨
      ¬ (region.start ≤ b ∧ b < region.start + region.length) := by
  have start := t.start
  have length := t.length
  rcases may with ⟨x, owned, before, after⟩ | before | after
  · exact .inl ⟨x.1, x.2, .application owned, by omega, by omega⟩
  · exact .inr (by omega)
  · exact .inr (by omega)

/-- One change keeps the allocations apart, and the bytes of every ring. -/
theorem step (t : Tenancy region m h live holder) (run : Run config m h)
    (change : Change m h m' h') :
    (∃ live' holder', Tenancy region m' h' live' holder') ∧
      ∀ q r, m.kernel.ring q = some r → RingKept m h m' h' q r := by
  cases change.stores run with
  | rests storage idle =>
    refine ⟨⟨live, t.of_rests run change storage idle⟩, fun q r ring => .rests fun b _ _ => ?_⟩
    rw [Kernel.memory_of_storage storage]
  | uses uses =>
    obtain ⟨after, frame⟩ := uses.tenancy t
    refine ⟨after, fun q r ring => .rests fun b lower upper => ?_⟩
    obtain ⟨x, hx, address, room, -⟩ := t.held (.queue ring)
    exact frame x hx b ⟨by omega, by omega⟩
  | @copies c q r payload here after kernel idle same =>
    obtain ⟨ring, room, fits⟩ := run.guarded.sees here
    obtain ⟨slots, n, p, shape⟩ := run.guarded.shaped ring
    have within := shape.slot_le shape.inside
    rw [← shape.position] at within
    have kept : ∀ b, ¬ (r.base ≤ b ∧ b < r.base + r.capacity) →
        (r.store m.kernel.memory payload).get b = m.kernel.memory.get b := by
      intro b outside
      exact r.get_store _ fits (by omega)
    refine ⟨⟨live, holder, t.of_store run change same idle kernel fun b _ _ free => ?_⟩, ?_⟩
    · refine kept b fun ⟨lower, upper⟩ => ?_
      obtain ⟨x, hx, address, room, -⟩ := t.held (.queue ring)
      exact free x hx ⟨by omega, by omega⟩
    · intro q' r' ring'
      by_cases mine : q' = q
      · subst mine
        cases ring.symm.trans ring'
        exact .copies here after kernel same
      · refine .rests fun b lower upper => ?_
        rw [kernel]
        exact kept b (t.apart ring' (.queue ring) (by simpa using Ne.symm mine) lower upper)
  | writes a bytes may write same =>
    have idle : ∀ c task, m.stageOf c = some (.useHeap task) → m'.stageOf c = m.stageOf c :=
      fun c _ _ => by rw [write]; rfl
    have stored : ∀ b, ¬ (a ≤ b ∧ b < a + bytes.length) →
        (m.kernel.memory.setBytes a bytes).get b = m.kernel.memory.get b :=
      fun b outside => (Memory.get_setBytes ..).trans (if_neg outside)
    have kernel : m'.kernel = { m.kernel with memory := m.kernel.memory.setBytes a bytes } :=
      write ▸ rfl
    refine ⟨⟨live, holder, t.of_store run change same idle kernel fun b lower upper free => ?_⟩, ?_⟩
    · refine stored b fun ⟨first, last⟩ => ?_
      rcases t.owned_of_may may first last with ⟨a, n, owned, within⟩ | outside
      · obtain ⟨x, hx, address, room, -⟩ := t.held owned
        exact free x hx ⟨by omega, by omega⟩
      · exact outside ⟨lower, upper⟩
    · refine fun q r ring => .rests fun b lower upper => ?_
      rw [kernel]
      refine stored b fun ⟨first, last⟩ => ?_
      rcases t.owned_of_may may first last with ⟨a, n, owned, within⟩ | outside
      · exact t.apart ring owned (by simp) lower upper within
      · obtain ⟨x, hx, address, room, -⟩ := t.held (.queue ring)
        have := t.sound.inside hx
        omega

end Tenancy

/-- The region is the buffer of the kernel heap. Like every object in memory it does not lie at
address zero and ends within the address space. -/
structure Arena (config : Config) (region : Heap.Region) : Prop where
  start : config.arenaStart = region.start
  length : config.arenaSize = region.length

/-- In every run the allocations lie apart, each with its one holder. -/
theorem Run.tenancy (run : Run config m h) (arena : Arena config region) :
    ∃ live holder, Tenancy region m h live holder := by
  refine Run.induct (P := fun m h => ∃ live holder, Tenancy region m h live holder) ?_
    (fun run ih change => ?_) run
  · refine ⟨[], fun _ => .application, arena.start, arena.length, ?_, fun claims => ?_⟩
    · have heap : (Machine.initial config).system.prepareHeap.kernel.heap = region.heap := by
        rw [System.prepareHeap_heap]
        have none : ({} : Heap).hasRegion ≠ true := by decide
        exact (if_neg none).trans (congrArg₂ Heap.ofRegion arena.start arena.length)
      rw [heap]
      exact .uncarved _
    · cases claims with
      | application owned => cases owned
      | call here calling => cases calling
      | queue ring => cases ring
  · obtain ⟨live, holder, t⟩ := ih
    exact (t.step run change).1

/-- The bytes of a ring change only when a message is copied into it. -/
theorem Change.kept (run : Run config m h) (arena : Arena config region)
    (change : Change m h m' h') {q : Nat} {r : Ring} (ring : m.kernel.ring q = some r) :
    RingKept m h m' h' q r := by
  obtain ⟨live, holder, t⟩ := run.tenancy arena
  exact (t.step run change).2 q r ring

end Machine

end TaskKernel
