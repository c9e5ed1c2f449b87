import CppLinq.Interleaving
import Mathlib.Data.List.Range

/-!
# Chunked buffers

The container of `core/chunked_buffer.h` : a list in chunks of `n` elements, of which all but
the last are full. Elements are read by a division of the index, and walked chunk by chunk
with a count for the last one. Both present the list of the elements that were added
(`presents_of_represents`), over every sequence of operations on any number of buffers, whose
allocations and constructors may throw, and every element is destroyed once
(`run_buffers`).
-/

namespace CppLinq

/-! ## Lists of lists of one length -/

/-- An index is split into a chunk and a place in it. -/
theorem getElem?_flatten_of_length {α : Type} {n : ℕ} (hn : 0 < n) (cs : List (List α)) :
    ∀ i, (∀ c ∈ cs, c.length = n) → cs[i / n]?.bind (·[i % n]?) = cs.flatten[i]? := by
  induction cs with
  | nil => intro i _; simp
  | cons c cs ih =>
    intro i hcs
    have hc : c.length = n := hcs c List.mem_cons_self
    rw [List.flatten_cons]
    by_cases hi : i < n
    · rw [Nat.div_eq_of_lt hi, Nat.mod_eq_of_lt hi, List.getElem?_append_left (hc ▸ hi)]
      rfl
    · have hle : n ≤ i := Nat.le_of_not_lt hi
      rw [List.getElem?_append_right (hc ▸ hle), hc, ← ih (i - n) fun c' hc' =>
        hcs c' (List.mem_cons_of_mem _ hc'), ← Nat.mod_eq_sub_mod hle,
        Nat.div_eq_sub_div hn hle, List.getElem?_cons_succ]

/-- The elements of slots none of which is empty. -/
def allSome {α : Type} : List (Option α) → Option (List α)
  | [] => some []
  | none :: _ => none
  | some x :: xs => (allSome xs).map (x :: ·)

@[simp] theorem allSome_map_some {α : Type} (xs : List α) : allSome (xs.map some) = some xs := by
  induction xs with
  | nil => rfl
  | cons x xs ih => rw [List.map_cons, allSome, ih]; rfl

/-! ## The buffer -/

/-- The slots of a chunk hold an element, or nothing yet. -/
structure ChunkedBuffer (α : Type) where
  chunks : List (List (Option α)) := []
  currentChunkCount : ℕ := 0
  totalSize : ℕ := 0

namespace ChunkedBuffer

variable {α : Type} (n : ℕ) (b : ChunkedBuffer α)

/-- `allocate_chunk`. -/
def allocateChunk : ChunkedBuffer α :=
  { b with chunks := b.chunks ++ [List.replicate n none], currentChunkCount := 0 }

/-- The `new` of an element in the next slot of the last chunk. -/
def place (a : α) : ChunkedBuffer α where
  chunks := b.chunks.dropLast ++ [(b.chunks.getLast?.getD []).set b.currentChunkCount (some a)]
  currentChunkCount := b.currentChunkCount + 1
  totalSize := b.totalSize + 1

/-- `emplace_back`, of which also `push_back` consists. The allocation of a chunk may throw,
and so may the constructor, that makes no element then. -/
def emplaceBack (allocates : Bool) (made : Option α) : Option α × ChunkedBuffer α :=
  let needsChunk := b.chunks.isEmpty || b.currentChunkCount == n
  if needsChunk && !allocates then (none, b)
  else
    let b := if needsChunk then b.allocateChunk n else b
    match made with
    | none => (none, b)
    | some a => (some a, b.place a)

/-- `size`. -/
def size : ℕ :=
  b.totalSize

/-- `empty`. -/
def isEmpty : Bool :=
  b.totalSize == 0

/-- `operator[]`, which is undefined where there is no element. -/
def get (index : ℕ) : Option α :=
  (b.chunks[index / n]?.bind (·[index % n]?)).join

/-- `at`, which throws outside the buffer. -/
def at? (index : ℕ) : Except String (Option α) :=
  if index ≥ b.totalSize then .error "ChunkedBuffer::at: index out of range"
  else .ok (b.get n index)

/-- `front`, which throws on an empty buffer. -/
def front : Except String (Option α) :=
  b.at? n 0

/-- `back`, which throws on an empty buffer. -/
def back : Except String (Option α) :=
  if b.totalSize = 0 then .error "ChunkedBuffer::back: empty container"
  else .ok (b.get n (b.totalSize - 1))

/-- The elements from an iterator, given by its index, up to `end()`. -/
def forwardFrom (index : ℕ) : List (Option α) :=
  if index < b.totalSize then b.get n index :: forwardFrom (index + 1) else []
termination_by b.totalSize - index

/-- What `begin` to `end` gives. -/
def forward : List (Option α) :=
  b.forwardFrom n 0

/-- The elements from a reverse iterator, given by its base, up to `rend()`. It is at the
element before its base. -/
def reverseFrom : ℕ → List (Option α)
  | 0 => []
  | base + 1 => b.get n base :: reverseFrom base

/-- What `rbegin` to `rend` gives. -/
def reverse : List (Option α) :=
  b.reverseFrom n b.totalSize

/-- The loop over the chunks : the last one has a count of its own. -/
def visited (count : ℕ) : List (List (Option α)) → List (List (Option α))
  | [] => []
  | chunk :: rest =>
    let countInChunk := if rest.isEmpty then count else n
    if countInChunk = 0 then visited count rest
    else chunk.take countInChunk :: visited count rest

/-- The pieces that `for_each_chunk` hands to its function. -/
def forEachChunk : List (List (Option α)) :=
  visited n b.currentChunkCount b.chunks

/-- `to_vector() const&`, which copies the elements. -/
def toVector : Option (List α) :=
  allSome (b.forEachChunk n).flatten

/-- `clear`, with the elements that it destroys. -/
def clear : Option (List α × ChunkedBuffer α) :=
  (allSome (visited n b.currentChunkCount b.chunks).flatten).map (·, {})

/-- `to_vector() &&`, which moves the elements out and clears : the vector, the elements
destroyed and the buffer. -/
def toVectorMove : Option (List α × List α × ChunkedBuffer α) := do
  let result ← allSome (visited n b.currentChunkCount b.chunks).flatten
  let (gone, cleared) ← b.clear n
  return (result, gone, cleared)

/-- The move constructor : the new buffer, and the one that was moved from. -/
def moveConstruct : ChunkedBuffer α × ChunkedBuffer α :=
  (b, {})

/-- The move assignment of another buffer : the elements destroyed, the buffer, and the one
that was moved from. -/
def moveAssign (other : ChunkedBuffer α) :
    Option (List α × ChunkedBuffer α × ChunkedBuffer α) := do
  let (gone, _) ← b.clear n
  return (gone, other, {})

/-! ## What a buffer represents -/

/-- A buffer with the given full chunks, and a last one that holds the given elements. -/
def filled (n : ℕ) (full : List (List α)) (last : List α) : ChunkedBuffer α where
  chunks := full.map (·.map some) ++ [last.map some ++ List.replicate (n - last.length) none]
  currentChunkCount := last.length
  totalSize := full.length * n + last.length

/-- The buffer represents a list : all chunks but the last are full, and the last may hold
any number of elements, also none. -/
inductive Represents (n : ℕ) : ChunkedBuffer α → List α → Prop
  | empty : Represents n {} []
  | filled {full : List (List α)} {last : List α} (hfull : ∀ c ∈ full, c.length = n)
      (hlast : last.length ≤ n) : Represents n (filled n full last) (full.flatten ++ last)

variable {n b} {xs : List α}

theorem length_flatten_of_length {full : List (List α)} (hfull : ∀ c ∈ full, c.length = n) :
    full.flatten.length = full.length * n := by
  rw [List.length_flatten, List.map_congr_left hfull, List.map_const', List.sum_replicate]
  rfl

/-- The size is the number of the elements. -/
theorem Represents.length (h : Represents n b xs) : b.totalSize = xs.length := by
  cases h with
  | empty => rfl
  | filled hfull hlast => rw [List.length_append, length_flatten_of_length hfull]; rfl

/-- A new chunk comes after a last one that is full. -/
theorem allocateChunk_filled (full : List (List α)) {last : List α} (h : last.length = n) :
    (filled n full last).allocateChunk n = filled n (full ++ [last]) [] := by
  simp [filled, allocateChunk, h, Nat.succ_mul]

theorem allocateChunk_empty : ({} : ChunkedBuffer α).allocateChunk n = filled n [] [] := by
  simp [filled, allocateChunk]

/-- An element goes to the first slot of the last chunk that is free. -/
theorem place_filled (full : List (List α)) {last : List α} (h : last.length < n) (a : α) :
    (filled n full last).place a = filled n full (last ++ [a]) := by
  have hslot : (last.map some ++ List.replicate (n - last.length) none).set last.length (some a) =
      (last ++ [a]).map some ++ List.replicate (n - (last ++ [a]).length) none := by
    obtain ⟨k, hk⟩ := Nat.exists_eq_add_of_lt h
    rw [List.set_append_right _ _ (by simp), List.length_map, Nat.sub_self,
      show n - last.length = k + 1 by omega, List.replicate_succ, List.set_cons_zero]
    simp [show n - (last.length + 1) = k by omega]
  simp only [place, filled, List.dropLast_concat, List.getLast?_concat, Option.getD_some, hslot]
  simp [Nat.add_assoc]

/-- What a constructor makes in a chunk with a free slot is added, and nothing else is. -/
theorem represents_made {full : List (List α)} {last : List α} (hfull : ∀ c ∈ full, c.length = n)
    (hlast : last.length < n) (made : Option α) :
    Represents n (made.elim (filled n full last) (filled n full last).place)
      (full.flatten ++ last ++ made.toList) := by
  cases made with
  | none =>
    rw [Option.toList_none, List.append_nil]
    exact .filled hfull hlast.le
  | some a =>
    rw [Option.elim_some, place_filled full hlast, List.append_assoc]
    exact .filled hfull (by rw [List.length_append]; exact hlast)

/-- `emplace_back` appends unless the allocation or the constructor fails. -/
theorem emplaceBack_eq (allocates : Bool) (made : Option α) :
    b.emplaceBack n allocates made =
      if (b.chunks.isEmpty || b.currentChunkCount == n) = true then
        if allocates then (made, made.elim (b.allocateChunk n) (b.allocateChunk n).place)
        else (none, b)
      else (made, made.elim b b.place) := by
  unfold emplaceBack
  cases b.chunks.isEmpty || b.currentChunkCount == n <;> cases allocates <;> cases made <;> rfl

/-- An `emplace_back` adds what it returns, and adds nothing when it throws. -/
theorem Represents.emplaceBack (hn : 0 < n) (h : Represents n b xs) (allocates : Bool)
    (made : Option α) :
    Represents n (b.emplaceBack n allocates made).2
      (xs ++ (b.emplaceBack n allocates made).1.toList) := by
  rw [emplaceBack_eq]
  cases h with
  | empty =>
    cases allocates with
    | false => simpa using Represents.empty
    | true =>
      have hmade := @represents_made _ n [] [] nofun hn made
      rw [← allocateChunk_empty] at hmade
      simpa using hmade
  | @filled full last hfull hlast =>
    have hcond : ((ChunkedBuffer.filled n full last).chunks.isEmpty ||
        (ChunkedBuffer.filled n full last).currentChunkCount == n) = decide (last.length = n) := by
      have hsome : (ChunkedBuffer.filled n full last).chunks.isEmpty = false := by
        rw [List.isEmpty_eq_false_iff]
        exact List.append_ne_nil_of_right_ne_nil _ (List.cons_ne_nil _ _)
      rw [hsome, Bool.false_or]
      rfl
    rw [hcond]
    by_cases hlength : last.length = n
    · rw [decide_eq_true hlength, if_pos rfl]
      cases allocates with
      | false => simpa using Represents.filled hfull hlast
      | true =>
        have hfull' : ∀ c ∈ full ++ [last], c.length = n := by
          intro c hc
          rcases List.mem_append.mp hc with hc | hc
          · exact hfull c hc
          · exact List.mem_singleton.mp hc ▸ hlength
        have hmade := @represents_made _ n _ [] hfull' hn made
        rw [if_pos rfl, allocateChunk_filled full hlength]
        simpa using hmade
    · rw [if_neg (by simpa using hlength)]
      exact represents_made hfull (Nat.lt_of_le_of_ne hlast hlength) made

theorem slot_length {full : List (List α)} {last : List α} (hfull : ∀ c ∈ full, c.length = n)
    (hlast : last.length ≤ n) : ∀ c ∈ (filled n full last).chunks, c.length = n := by
  intro c hc
  rcases List.mem_append.mp hc with hc | hc
  · obtain ⟨c', hc', rfl⟩ := List.mem_map.mp hc
    rw [List.length_map, hfull c' hc']
  · rw [List.mem_singleton.mp hc, List.length_append, List.length_map, List.length_replicate]
    omega

theorem flatten_filled (full : List (List α)) (last : List α) :
    (filled n full last).chunks.flatten =
      (full.flatten ++ last).map some ++ List.replicate (n - last.length) none := by
  simp [filled, List.map_flatten]

/-- The division of an index finds the element of the list. -/
theorem Represents.get (hn : 0 < n) (h : Represents n b xs) (i : ℕ) : b.get n i = xs[i]? := by
  cases h with
  | empty => simp [ChunkedBuffer.get]
  | @filled full last hfull hlast =>
    rw [ChunkedBuffer.get, getElem?_flatten_of_length hn _ _ (slot_length hfull hlast),
      flatten_filled]
    by_cases hi : i < (full.flatten ++ last).length
    · rw [List.getElem?_append_left (by rw [List.length_map]; exact hi), List.getElem?_map]
      cases (full.flatten ++ last)[i]? <;> rfl
    · rw [List.getElem?_append_right (by rw [List.length_map]; omega),
        List.getElem?_eq_none (Nat.le_of_not_lt hi), List.getElem?_replicate]
      split <;> rfl

theorem flatten_visited {full : List (List α)} (hn : 0 < n) (hfull : ∀ c ∈ full, c.length = n)
    (last : List α) (k : ℕ) :
    (visited n last.length
      (full.map (·.map some) ++ [last.map some ++ List.replicate k none])).flatten =
        (full.flatten ++ last).map some := by
  induction full with
  | nil =>
    by_cases hlast : last = []
    · subst hlast
      simp [visited]
    · have hne : last.length ≠ 0 := by simpa using hlast
      simp [visited, hlast]
  | cons c full ih =>
    have hc : c.length = n := hfull c List.mem_cons_self
    have htake : (c.map some).take n = c.map some := by
      rw [List.take_of_length_le]
      rw [List.length_map, hc]
    simp [visited, Nat.ne_of_gt hn, htake, ih fun c' hc' => hfull c' (List.mem_cons_of_mem _ hc')]

/-- The walk over the chunks finds the list. -/
theorem Represents.visited (hn : 0 < n) (h : Represents n b xs) :
    (visited n b.currentChunkCount b.chunks).flatten = xs.map some := by
  cases h with
  | empty => rfl
  | filled hfull hlast => exact flatten_visited hn hfull _ _

/-- The iterators give the elements in order. -/
theorem Represents.forwardFrom (hn : 0 < n) (h : Represents n b xs) (i : ℕ) :
    b.forwardFrom n i = (xs.drop i).map some := by
  induction i using ChunkedBuffer.forwardFrom.induct b with
  | case1 i hi ih =>
    have hlt : i < xs.length := h.length ▸ hi
    rw [ChunkedBuffer.forwardFrom, if_pos hi, ih, h.get hn, List.drop_eq_getElem_cons hlt,
      List.getElem?_eq_getElem hlt, List.map_cons]
  | case2 i hi =>
    have hle : xs.length ≤ i := h.length ▸ Nat.le_of_not_lt hi
    rw [ChunkedBuffer.forwardFrom, if_neg hi, List.drop_of_length_le hle, List.map_nil]

/-- The reverse iterators give them in the other order. -/
theorem Represents.reverseFrom (hn : 0 < n) (h : Represents n b xs) {i : ℕ}
    (hi : i ≤ xs.length) : b.reverseFrom n i = (xs.take i).reverse.map some := by
  induction i with
  | zero => rfl
  | succ i ih =>
    rw [ChunkedBuffer.reverseFrom, ih (Nat.le_of_lt hi), h.get hn, List.getElem?_eq_getElem hi,
      List.take_succ_eq_append_getElem hi, List.reverse_append]
    rfl

/-- A buffer presents a list : all that can be observed of it is that of the list. -/
structure Presents (n : ℕ) (b : ChunkedBuffer α) (xs : List α) : Prop where
  /-- The sizes agree with the chunks. -/
  total : b.totalSize = if b.chunks = [] then 0 else (b.chunks.length - 1) * n + b.currentChunkCount
  current : b.currentChunkCount ≤ n
  size : b.size = xs.length
  isEmpty : b.isEmpty = xs.isEmpty
  get : ∀ i, b.get n i = xs[i]?
  at? : ∀ i, b.at? n i =
    if xs.length ≤ i then .error "ChunkedBuffer::at: index out of range" else .ok xs[i]?
  front : b.front n =
    if xs = [] then .error "ChunkedBuffer::at: index out of range" else .ok xs.head?
  back : b.back n =
    if xs = [] then .error "ChunkedBuffer::back: empty container" else .ok xs.getLast?
  forward : b.forward n = xs.map some
  reverse : b.reverse n = xs.reverse.map some
  forEachChunk : (b.forEachChunk n).flatten = xs.map some
  toVector : b.toVector n = some xs
  clear : b.clear n = some (xs, {})
  toVectorMove : b.toVectorMove n = some (xs, xs, {})

theorem Represents.sizes (h : Represents n b xs) :
    b.totalSize = (if b.chunks = [] then 0 else (b.chunks.length - 1) * n + b.currentChunkCount) ∧
      b.currentChunkCount ≤ n := by
  cases h with
  | empty => exact ⟨rfl, Nat.zero_le n⟩
  | filled hfull hlast => exact ⟨by simp [ChunkedBuffer.filled], hlast⟩

/-- `clear` destroys every element once. -/
theorem Represents.clear (hn : 0 < n) (h : Represents n b xs) : b.clear n = some (xs, {}) := by
  rw [ChunkedBuffer.clear, h.visited hn, allSome_map_some]
  rfl

/-- `at` gives the element, or throws outside. -/
theorem Represents.at? (hn : 0 < n) (h : Represents n b xs) (i : ℕ) :
    b.at? n i =
      if xs.length ≤ i then .error "ChunkedBuffer::at: index out of range" else .ok xs[i]? := by
  rw [ChunkedBuffer.at?, h.length, h.get hn]

theorem presents_of_represents (hn : 0 < n) (h : Represents n b xs) : Presents n b xs where
  total := h.sizes.1
  current := h.sizes.2
  size := h.length
  isEmpty := by
    rw [ChunkedBuffer.isEmpty, h.length]
    cases xs <;> rfl
  get := h.get hn
  at? := h.at? hn
  front := by
    rw [ChunkedBuffer.front, h.at? hn]
    cases xs <;> simp
  back := by
    rw [ChunkedBuffer.back, h.get hn, h.length]
    by_cases hxs : xs = []
    · simp [hxs]
    · rw [if_neg (by simpa using hxs), if_neg hxs, List.getLast?_eq_getElem?]
  forward := h.forwardFrom hn 0
  reverse := by
    rw [ChunkedBuffer.reverse, h.length, h.reverseFrom hn le_rfl, List.take_length]
  forEachChunk := h.visited hn
  toVector := by
    rw [ChunkedBuffer.toVector, ChunkedBuffer.forEachChunk, h.visited hn, allSome_map_some]
  clear := h.clear hn
  toVectorMove := by
    rw [ChunkedBuffer.toVectorMove, h.visited hn, allSome_map_some, h.clear hn]
    rfl

end ChunkedBuffer

/-! ## Any number of buffers -/

/-- An element : the number of its construction, and its value. -/
abbrev Element (T : Type) := ℕ × T

/-- The buffers of a program, and the account of their elements. -/
structure BufferSystem (T : Type) where
  /-- The buffers, until they are destroyed, each with the list of the elements that were
  added to it. -/
  objects : List (Option (ChunkedBuffer (Element T) × List (Element T))) := []
  /-- The number of elements constructed. -/
  created : ℕ := 0
  /-- The elements destroyed. -/
  destroyed : List ℕ := []

/-- What a program may do with its buffers, which it knows by their numbers. -/
inductive BufferOp (T : Type)
  | construct
  | emplaceBack (i : ℕ) (allocates : Bool) (made : Option T)
  | clear (i : ℕ)
  | moveConstruct (other : ℕ)
  | moveAssign (i other : ℕ)
  | toVectorMove (i : ℕ)
  | destroy (i : ℕ)

namespace BufferSystem

variable {T : Type} (n : ℕ)

/-- The buffer with a number, if it is alive. -/
def object? (s : BufferSystem T) (i : ℕ) : Option (ChunkedBuffer (Element T) × List (Element T)) :=
  s.objects[i]?.join

/-- The elements of a buffer are destroyed, and another object takes its place. -/
def replace (s : BufferSystem T) (i : ℕ) (gone : List (Element T))
    (object : Option (ChunkedBuffer (Element T) × List (Element T))) : BufferSystem T :=
  { s with objects := s.objects.set i object, destroyed := s.destroyed ++ gone.map Prod.fst }

/-- A step of a program. It is undefined when a slot without an element is read. What names
a buffer that is not alive is no step of a program, and changes nothing. -/
def step (s : BufferSystem T) : BufferOp T → Option (BufferSystem T)
  | .construct => some { s with objects := s.objects ++ [some ({}, [])] }
  | .emplaceBack i allocates made =>
    match s.object? i with
    | none => some s
    | some (b, xs) =>
      let (added, b) := b.emplaceBack n allocates (made.map (s.created, ·))
      some { s with
        objects := s.objects.set i (some (b, xs ++ added.toList))
        created := s.created + added.toList.length }
  | .clear i =>
    match s.object? i with
    | none => some s
    | some (b, _) => (b.clear n).map fun (gone, b) => s.replace i gone (some (b, []))
  | .moveConstruct j =>
    match s.object? j with
    | none => some s
    | some (b, xs) =>
      let (b, other) := b.moveConstruct
      some { s with objects := s.objects.set j (some (other, [])) ++ [some (b, xs)] }
  | .moveAssign i j =>
    if i = j then some s
    else
      match s.object? i, s.object? j with
      | some (b, _), some (other, xs) =>
        (b.moveAssign n other).map fun (gone, b, other) =>
          (s.replace i gone (some (b, xs))).replace j [] (some (other, []))
      | _, _ => some s
  | .toVectorMove i =>
    match s.object? i with
    | none => some s
    | some (b, _) => (b.toVectorMove n).map fun (_, gone, b) => s.replace i gone (some (b, []))
  | .destroy i =>
    match s.object? i with
    | none => some s
    | some (b, _) => (b.clear n).map fun (gone, _) => s.replace i gone none

/-- Operations, one after another. -/
def run (s : BufferSystem T) : List (BufferOp T) → Option (BufferSystem T)
  | [] => some s
  | op :: ops => (s.step n op).bind (run · ops)

/-- The elements that are in a buffer. -/
def held (object : Option (ChunkedBuffer (Element T) × List (Element T))) : List ℕ :=
  object.elim [] fun (_, xs) => xs.map Prod.fst

/-- The elements of the buffers that are alive. -/
def live (s : BufferSystem T) : List ℕ :=
  s.objects.flatMap held

/-- Each buffer represents the list of the elements added to it, and each element that was
constructed is in one place : destroyed, or in a buffer. -/
structure Inv (s : BufferSystem T) : Prop where
  represents : ∀ b xs, some (b, xs) ∈ s.objects → b.Represents n xs
  once : (s.destroyed ++ s.live).Perm (List.range s.created)

variable {n : ℕ} {s : BufferSystem T} {i j : ℕ} {b : ChunkedBuffer (Element T)}
  {xs : List (Element T)}

theorem getElem?_of_object? (h : s.object? i = some (b, xs)) :
    s.objects[i]? = some (some (b, xs)) :=
  Option.join_eq_some_iff.mp h

theorem Inv.represents_of_object? (h : s.Inv n) (hi : s.object? i = some (b, xs)) :
    b.Represents n xs :=
  h.represents b xs (List.mem_of_getElem? (getElem?_of_object? hi))

/-- Replacing a buffer keeps all others. -/
theorem Inv.represents_set (h : s.Inv n)
    {object : Option (ChunkedBuffer (Element T) × List (Element T))}
    (hobject : ∀ b xs, object = some (b, xs) → b.Represents n xs) :
    ∀ b xs, some (b, xs) ∈ s.objects.set i object → b.Represents n xs := by
  intro b xs hmem
  rcases List.mem_or_eq_of_mem_set hmem with hmem | heq
  · exact h.represents b xs hmem
  · exact hobject b xs heq.symm

/-- A buffer may be replaced when its elements are destroyed. -/
theorem Inv.replace (h : s.Inv n) (hi : s.object? i = some (b, xs))
    {object : Option (ChunkedBuffer (Element T) × List (Element T))}
    (hobject : object = none ∨ object = some ({}, [])) : (s.replace i xs object).Inv n := by
  have hheld : held object = [] := by
    rcases hobject with rfl | rfl <;> rfl
  refine ⟨h.represents_set fun b xs heq => ?_, ?_⟩
  · rcases hobject with rfl | rfl
    · cases heq
    · obtain ⟨rfl, rfl⟩ := Prod.mk.inj (Option.some.inj heq)
      exact .empty
  · have hperm := flatMap_set_perm (getElem?_of_object? hi) held object
    rw [hheld, List.nil_append] at hperm
    have honce := (hperm.append_left s.destroyed).trans h.once
    rwa [← List.append_assoc] at honce

theorem emplaceBack_fst (b : ChunkedBuffer (Element T)) (allocates : Bool)
    (made : Option (Element T)) :
    (b.emplaceBack n allocates made).1 = none ∨ (b.emplaceBack n allocates made).1 = made := by
  rw [ChunkedBuffer.emplaceBack_eq]
  split
  · cases allocates
    · exact Or.inl rfl
    · exact Or.inr rfl
  · exact Or.inr rfl

/-- The elements that an `emplace_back` adds are those constructed by it. -/
theorem range_added {added : Option (Element T)} {made : Option T} {created : ℕ}
    (h : added = none ∨ added = made.map (created, ·)) :
    List.range (created + added.toList.length) =
      List.range created ++ added.toList.map Prod.fst := by
  rcases h with rfl | rfl
  · simp
  · cases made with
    | none => simp
    | some a => simp [List.range_succ]

/-- Each operation keeps the invariant of all buffers. -/
theorem Inv.emplaceBack (hn : 0 < n) (h : s.Inv n) (hi : s.object? i = some (b, xs))
    (allocates : Bool) (made : Option T) :
    ∃ s', s.step n (.emplaceBack i allocates made) = some s' ∧ s'.Inv n := by
  refine ⟨_, by rw [step, hi], ?_, ?_⟩
  · refine h.represents_set fun b' xs' heq => ?_
    obtain ⟨rfl, rfl⟩ := Prod.mk.inj (Option.some.inj heq)
    exact (h.represents_of_object? hi).emplaceBack hn allocates _
  · have hadded := emplaceBack_fst (n := n) b allocates (made.map (s.created, ·))
    generalize b.emplaceBack n allocates (made.map (s.created, ·)) = result at hadded ⊢
    have hperm := flatMap_set_perm (getElem?_of_object? hi) held
      (some (result.2, xs ++ result.1.toList))
    have hheld : held (some (result.2, xs ++ result.1.toList)) =
        held (some (b, xs)) ++ result.1.toList.map Prod.fst := List.map_append
    rw [hheld, List.append_assoc, List.perm_append_left_iff] at hperm
    change (s.destroyed ++ _).Perm _
    rw [range_added hadded]
    have hset := hperm.append_left s.destroyed
    have hswap : (s.destroyed ++ (result.1.toList.map Prod.fst ++ s.live)).Perm
        (s.destroyed ++ s.live ++ result.1.toList.map Prod.fst) := by
      rw [List.append_assoc]
      exact List.perm_append_comm.append_left _
    exact (hset.trans hswap).trans (h.once.append_right _)

theorem Inv.moveConstruct (h : s.Inv n) (hj : s.object? j = some (b, xs)) :
    ∃ s', s.step n (.moveConstruct j) = some s' ∧ s'.Inv n := by
  refine ⟨_, by rw [step, hj], ?_, ?_⟩
  · intro b' xs' hmem
    rcases List.mem_append.mp hmem with hmem | hmem
    · refine h.represents_set (fun b' xs' heq => ?_) b' xs' hmem
      obtain ⟨rfl, rfl⟩ := Prod.mk.inj (Option.some.inj heq)
      exact .empty
    · obtain ⟨rfl, rfl⟩ := Prod.mk.inj (Option.some.inj (List.mem_singleton.mp hmem))
      exact h.represents_of_object? hj
  · have hperm := flatMap_set_perm (getElem?_of_object? hj) held (some ({}, []))
    change (s.destroyed ++ (s.objects.set j _ ++ [some (b, xs)]).flatMap held).Perm _
    rw [List.flatMap_append, List.flatMap_singleton]
    exact ((List.perm_append_comm.trans hperm).append_left s.destroyed).trans h.once

theorem Inv.moveAssign (hn : 0 < n) (h : s.Inv n) (hij : i ≠ j)
    {other : ChunkedBuffer (Element T)} {ys : List (Element T)}
    (hi : s.object? i = some (b, xs)) (hj : s.object? j = some (other, ys)) :
    ∃ s', s.step n (.moveAssign i j) = some s' ∧ s'.Inv n := by
  have hclear := (h.represents_of_object? hi).clear hn
  have hmove : b.moveAssign n other = some (xs, other, {}) := by
    rw [ChunkedBuffer.moveAssign, hclear]
    rfl
  have hstep : s.step n (.moveAssign i j) =
      some ((s.replace i xs (some (other, ys))).replace j [] (some ({}, []))) := by
    simp only [step, if_neg hij, hi, hj, hmove, Option.map_some]
  refine ⟨_, hstep, ?_, ?_⟩
  · intro b' xs' hmem
    rcases List.mem_or_eq_of_mem_set hmem with hmem | heq
    · refine h.represents_set (fun b' xs' heq => ?_) b' xs' hmem
      obtain ⟨rfl, rfl⟩ := Prod.mk.inj (Option.some.inj heq)
      exact h.represents_of_object? hj
    · obtain ⟨rfl, rfl⟩ := Prod.mk.inj (Option.some.inj heq)
      exact .empty
  · -- first the elements of `other` are in two buffers, then in one
    have hj' : (s.objects.set i (some (other, ys)))[j]? = some (some (other, ys)) := by
      rw [List.getElem?_set_ne hij]
      exact getElem?_of_object? hj
    have hfirst := flatMap_set_perm (getElem?_of_object? hi) held (some (other, ys))
    have hsecond := flatMap_set_perm hj' held (some ({}, []))
    have hboth : (held (some (other, ys)) ++ (held (some (b, xs)) ++
        ((s.objects.set i (some (other, ys))).set j (some ({}, []))).flatMap held)).Perm
          (held (some (other, ys)) ++ s.live) := by
      refine List.Perm.trans ?_ hfirst
      have hswap := (hsecond.append_left (held (some (b, xs))))
      rw [← List.append_assoc] at hswap ⊢
      exact (List.perm_append_comm.append_right _).trans hswap
    have hgone := (List.perm_append_left_iff _).mp hboth
    have honce := (hgone.append_left s.destroyed).trans h.once
    simpa [BufferSystem.replace, live, held] using honce

/-- Every operation is defined, and keeps the account. -/
theorem Inv.step (hn : 0 < n) (h : s.Inv n) (op : BufferOp T) :
    ∃ s', s.step n op = some s' ∧ s'.Inv n := by
  cases op with
  | construct =>
    refine ⟨_, rfl, fun b xs hmem => ?_, ?_⟩
    · rcases List.mem_append.mp hmem with hmem | hmem
      · exact h.represents b xs hmem
      · obtain ⟨rfl, rfl⟩ := Prod.mk.inj (Option.some.inj (List.mem_singleton.mp hmem))
        exact .empty
    · simpa [live, held] using h.once
  | emplaceBack i allocates made =>
    cases hi : s.object? i with
    | none => exact ⟨s, by simp only [BufferSystem.step, hi], h⟩
    | some object => exact h.emplaceBack hn hi allocates made
  | clear i =>
    cases hi : s.object? i with
    | none => exact ⟨s, by simp only [BufferSystem.step, hi], h⟩
    | some object =>
      have hclear := (h.represents_of_object? hi).clear hn
      exact ⟨_, by simp only [BufferSystem.step, hi, hclear, Option.map_some],
        h.replace hi (Or.inr rfl)⟩
  | moveConstruct j =>
    cases hj : s.object? j with
    | none => exact ⟨s, by simp only [BufferSystem.step, hj], h⟩
    | some object => exact h.moveConstruct hj
  | moveAssign i j =>
    by_cases hij : i = j
    · exact ⟨s, if_pos hij, h⟩
    · cases hi : s.object? i with
      | none => exact ⟨s, by simp only [BufferSystem.step, if_neg hij, hi], h⟩
      | some object =>
        cases hj : s.object? j with
        | none => exact ⟨s, by simp only [BufferSystem.step, if_neg hij, hi, hj], h⟩
        | some other => exact h.moveAssign hn hij hi hj
  | toVectorMove i =>
    cases hi : s.object? i with
    | none => exact ⟨s, by simp only [BufferSystem.step, hi], h⟩
    | some object =>
      have hmove := (ChunkedBuffer.presents_of_represents hn
        (h.represents_of_object? hi)).toVectorMove
      exact ⟨_, by simp only [BufferSystem.step, hi, hmove, Option.map_some],
        h.replace hi (Or.inr rfl)⟩
  | destroy i =>
    cases hi : s.object? i with
    | none => exact ⟨s, by simp only [BufferSystem.step, hi], h⟩
    | some object =>
      have hclear := (h.represents_of_object? hi).clear hn
      exact ⟨_, by simp only [BufferSystem.step, hi, hclear, Option.map_some],
        h.replace hi (Or.inl rfl)⟩

/-- So does any sequence of operations. -/
theorem Inv.run (hn : 0 < n) (ops : List (BufferOp T)) :
    ∀ {s : BufferSystem T}, s.Inv n → ∃ s', s.run n ops = some s' ∧ s'.Inv n := by
  induction ops with
  | nil => intro s h; exact ⟨s, rfl, h⟩
  | cons op ops ih =>
    intro s h
    obtain ⟨s', hstep, hinv⟩ := h.step hn op
    obtain ⟨s'', hrun, hinv'⟩ := ih hinv
    exact ⟨s'', by rw [BufferSystem.run, hstep]; exact hrun, hinv'⟩

theorem inv_new : ({} : BufferSystem T).Inv n :=
  ⟨nofun, List.Perm.refl _⟩

/-- Where neither the allocation nor the constructor throws, the element is added at the end. -/
theorem step_emplaceBack (hi : s.object? i = some (b, xs)) (v : T) :
    ∃ s' b', s.step n (.emplaceBack i true (some v)) = some s' ∧
      s'.object? i = some (b', xs ++ [(s.created, v)]) := by
  have hmade : (b.emplaceBack n true (some (s.created, v))).1 = some (s.created, v) := by
    rw [ChunkedBuffer.emplaceBack_eq, if_pos rfl]
    split <;> rfl
  have hlength := (List.getElem?_eq_some_iff.mp (getElem?_of_object? hi)).1
  refine ⟨_, (b.emplaceBack n true (some (s.created, v))).2, by rw [step, hi], ?_⟩
  rw [object?, List.getElem?_set_self hlength, Option.map_some, hmade]
  rfl

/-- Whatever operations are done with any number of buffers, also when they throw, each
buffer presents the list of the elements that were added to it, each element constructed
is in one buffer or was destroyed, once, and an element that is constructed without a throw is
added to its buffer. -/
theorem run_buffers (hn : 0 < n) (ops : List (BufferOp T)) :
    ∃ s : BufferSystem T, ({} : BufferSystem T).run n ops = some s ∧
      (∀ i b xs, s.object? i = some (b, xs) → b.Presents n xs) ∧
      (s.destroyed ++ s.live).Perm (List.range s.created) ∧
      ∀ i b xs v, s.object? i = some (b, xs) → ∃ s' b',
        s.step n (.emplaceBack i true (some v)) = some s' ∧
          s'.object? i = some (b', xs ++ [(s.created, v)]) := by
  obtain ⟨s, hrun, hinv⟩ := inv_new.run hn ops
  exact ⟨s, hrun, fun i b xs hi => ChunkedBuffer.presents_of_represents hn
    (hinv.represents_of_object? hi), hinv.once, fun i b xs v hi => step_emplaceBack hi v⟩

/-- Chunks of two elements : a constructor throws in a new chunk, and the buffer is moved. -/
theorem run_buffers_two :
    ∃ s : BufferSystem Bool, ({} : BufferSystem Bool).run 2
        [.construct, .emplaceBack 0 true (some true), .emplaceBack 0 true (some false),
          .emplaceBack 0 true none, .emplaceBack 0 false (some true), .moveConstruct 0,
          .destroy 0] = some s ∧
      (∀ i b xs, s.object? i = some (b, xs) → b.Presents 2 xs) ∧
      (s.destroyed ++ s.live).Perm (List.range s.created) ∧
      ∀ i b xs v, s.object? i = some (b, xs) → ∃ s' b',
        s.step 2 (.emplaceBack i true (some v)) = some s' ∧
          s'.object? i = some (b', xs ++ [(s.created, v)]) :=
  run_buffers (by decide) _

end BufferSystem

end CppLinq
