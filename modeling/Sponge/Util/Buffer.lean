import Mathlib.Data.List.Basic
import Mathlib.Order.Basic
import Mathlib.Tactic.Common

/-!
# Read-only byte buffers

`Buffer` shares a string and discards bytes from its front by advancing an offset.  The string is
released as soon as the offset reaches its end.  What a reader sees of a buffer is `str`.

`BufferList` is a message in several pieces, such as a header and its payload, and `BufferViewList` is a
temporary view of one.  Both discard bytes from the front by the same loop over their pieces, which is
`removePrefixLoop`.
-/

namespace Sponge

/-- The standard exceptions that the utility classes throw. -/
inductive StdException where
  | outOfRange (what : String)
  | runtimeError (what : String)
  deriving DecidableEq, Repr

/-- A reference-counted read-only string that can discard bytes from the front. -/
structure Buffer where
  storage : Option (List UInt8) := none
  startingOffset : ℕ := 0
  deriving DecidableEq, Repr

namespace Buffer

def ofString (string : List UInt8) : Buffer := { storage := some string }

def str (buffer : Buffer) : List UInt8 :=
  match buffer.storage with
  | none => []
  | some string => string.drop buffer.startingOffset

def size (buffer : Buffer) : ℕ := buffer.str.length

/-- The byte at a position, `std::string_view::at`. -/
def byteAt (buffer : Buffer) (position : ℕ) : Except StdException UInt8 :=
  match buffer.str[position]? with
  | some byte => .ok byte
  | none => .error (.outOfRange "basic_string_view::at")

def removePrefix (buffer : Buffer) (count : ℕ) : Except StdException Buffer :=
  if count > buffer.str.length then .error (.outOfRange "Buffer::remove_prefix")
  else
    let startingOffset := buffer.startingOffset + count
    match buffer.storage with
    | some string =>
        if startingOffset = string.length then .ok { storage := none, startingOffset }
        else .ok { storage := some string, startingOffset }
    | none => .ok { storage := none, startingOffset }

@[simp] theorem str_ofString (string : List UInt8) : (ofString string).str = string := rfl

/-- Within the size, removal succeeds and drops exactly the first bytes. -/
theorem removePrefix_of_le {buffer : Buffer} {count : ℕ} (h : count ≤ buffer.size) :
    ∃ rest, buffer.removePrefix count = .ok rest ∧ rest.str = buffer.str.drop count := by
  have hnot : ¬ count > buffer.str.length := Nat.not_lt.mpr h
  unfold removePrefix
  rw [if_neg hnot]
  rcases buffer with ⟨_ | string, offset⟩
  · exact ⟨_, rfl, by simp [str]⟩
  · dsimp only
    split_ifs with hend
    · refine ⟨_, rfl, ?_⟩
      simp [str, hend]
    · exact ⟨_, rfl, by simp [str]⟩

end Buffer

/-! ## Pieces -/

section

variable {α : Type}

/-- The loop of `remove_prefix` over a queue of pieces.  A piece that is longer than what is left to
discard is cut, any other one is popped. -/
def removePrefixLoop (size : α → ℕ) (removePrefix : α → ℕ → Except StdException α)
    (exhausted : StdException) : List α → ℕ → Except StdException (List α)
  | pieces, 0 => .ok pieces
  | [], _ + 1 => .error exhausted
  | front :: rest, n + 1 =>
      if n + 1 < size front then do
        let front ← removePrefix front (n + 1)
        return front :: rest
      else removePrefixLoop size removePrefix exhausted rest (n + 1 - size front)

variable {size : α → ℕ} {removePrefix : α → ℕ → Except StdException α} {exhausted : StdException}
  {bytes : α → List UInt8}

/-- The loop discards bytes over the borders of the pieces. -/
theorem removePrefixLoop_of_le (hsize : ∀ piece, size piece = (bytes piece).length)
    (hremove : ∀ piece n, n ≤ size piece →
      ∃ rest, removePrefix piece n = .ok rest ∧ bytes rest = (bytes piece).drop n)
    {pieces : List α} {n : ℕ} (h : n ≤ (pieces.flatMap bytes).length) :
    ∃ rest, removePrefixLoop size removePrefix exhausted pieces n = .ok rest ∧
      rest.flatMap bytes = (pieces.flatMap bytes).drop n := by
  fun_induction removePrefixLoop size removePrefix exhausted pieces n with
  | case1 pieces => exact ⟨pieces, rfl, rfl⟩
  | case2 n => simp at h
  | case3 front rest n hinside =>
    have hle := Nat.le_of_lt hinside
    obtain ⟨cut, hcut, hbytes⟩ := hremove front (n + 1) hle
    refine ⟨cut :: rest, by rw [hcut]; rfl, ?_⟩
    rw [List.flatMap_cons, List.flatMap_cons, hbytes, List.drop_append_of_le_length (hsize front ▸ hle)]
  | case4 front rest n hbeyond ih =>
    have hfront := hsize front
    rw [List.flatMap_cons, List.length_append] at h
    obtain ⟨left, hloop, hbytes⟩ := ih (by omega)
    have hpopped : (bytes front).drop (n + 1) = [] := List.drop_of_length_le (by omega)
    refine ⟨left, hloop, ?_⟩
    rw [hbytes, List.flatMap_cons, List.drop_append, hpopped, hfront, List.nil_append]

/-- It throws only if there are not enough. -/
theorem removePrefixLoop_of_lt (hsize : ∀ piece, size piece = (bytes piece).length)
    {pieces : List α} {n : ℕ} (h : (pieces.flatMap bytes).length < n) :
    removePrefixLoop size removePrefix exhausted pieces n = .error exhausted := by
  fun_induction removePrefixLoop size removePrefix exhausted pieces n with
  | case1 pieces => exact absurd h (Nat.not_lt_zero _)
  | case2 n => rfl
  | case3 front rest n hinside =>
    have hfront := hsize front
    rw [List.flatMap_cons, List.length_append] at h
    omega
  | case4 front rest n hbeyond ih =>
    have hfront := hsize front
    rw [List.flatMap_cons, List.length_append] at h
    exact ih (by omega)

end

/-- A string in several pieces. -/
structure BufferList where
  buffers : List Buffer := []
  deriving DecidableEq, Repr

namespace BufferList

def append (list other : BufferList) : BufferList := ⟨list.buffers ++ other.buffers⟩

def ofBuffer (buffer : Buffer) : BufferList := ⟨[buffer]⟩

def ofString (string : List UInt8) : BufferList :=
  append {} (ofBuffer (.ofString string))

/-- The conversion to a single buffer, `operator Buffer`. -/
def toBuffer (list : BufferList) : Except StdException Buffer :=
  match list.buffers with
  | [] => .ok {}
  | [buffer] => .ok buffer
  | _ => .error (.runtimeError
      "BufferList: please use concatenate() to combine a multi-Buffer BufferList into one Buffer")

def size (list : BufferList) : ℕ := list.buffers.foldl (fun sum buffer ↦ sum + buffer.size) 0

def concatenate (list : BufferList) : List UInt8 :=
  list.buffers.foldl (fun string buffer ↦ string ++ buffer.str) []

def removePrefix (list : BufferList) (n : ℕ) : Except StdException BufferList :=
  BufferList.mk <$> removePrefixLoop (fun buffer : Buffer ↦ buffer.str.length) Buffer.removePrefix
    (.outOfRange "BufferList::remove_prefix") list.buffers n

theorem concatenate_eq (list : BufferList) : list.concatenate = list.buffers.flatMap Buffer.str := by
  rw [concatenate, List.foldl_append_eq_append, List.nil_append, List.flatMap_def]

@[simp] theorem concatenate_append (list other : BufferList) :
    (list.append other).concatenate = list.concatenate ++ other.concatenate := by
  simp only [concatenate_eq, append, List.flatMap_append]

@[simp] theorem concatenate_empty : ({} : BufferList).concatenate = [] := rfl

@[simp] theorem concatenate_ofBuffer (buffer : Buffer) :
    (ofBuffer buffer).concatenate = buffer.str := rfl

@[simp] theorem concatenate_ofString (string : List UInt8) :
    (ofString string).concatenate = string := rfl

theorem size_eq (list : BufferList) : list.size = list.concatenate.length := by
  rw [size, concatenate_eq, List.length_flatMap, List.sum_eq_foldl, List.foldl_map]
  rfl

/-- Discarding what is there keeps the rest. -/
theorem removePrefix_of_le {list : BufferList} {n : ℕ} (h : n ≤ list.size) :
    ∃ rest, list.removePrefix n = .ok rest ∧ rest.concatenate = list.concatenate.drop n := by
  rw [size_eq, concatenate_eq] at h
  obtain ⟨buffers, hloop, hbytes⟩ := removePrefixLoop_of_le (fun _ ↦ rfl)
    (fun _ _ hle ↦ Buffer.removePrefix_of_le hle) h
  refine ⟨⟨buffers⟩, by rw [removePrefix, hloop]; rfl, ?_⟩
  rw [concatenate_eq, concatenate_eq]
  exact hbytes

theorem removePrefix_of_lt {list : BufferList} {n : ℕ} (h : list.size < n) :
    list.removePrefix n = .error (.outOfRange "BufferList::remove_prefix") := by
  rw [size_eq, concatenate_eq] at h
  rw [removePrefix, removePrefixLoop_of_lt (fun _ ↦ rfl) h]
  rfl

end BufferList

/-- A temporary view of a string in several pieces.  A `std::string_view` is the bytes that it shows. -/
structure BufferViewList where
  views : List (List UInt8) := []
  deriving DecidableEq, Repr

namespace BufferViewList

def ofBufferList (buffers : BufferList) : BufferViewList := ⟨buffers.buffers.map Buffer.str⟩

def removePrefix (list : BufferViewList) (n : ℕ) : Except StdException BufferViewList :=
  BufferViewList.mk <$> removePrefixLoop List.length (fun view n ↦ .ok (view.drop n))
    (.outOfRange "BufferListView::remove_prefix") list.views n

def size (list : BufferViewList) : ℕ := list.views.foldl (fun sum view ↦ sum + view.length) 0

/-- Convert to a vector of `iovec` structures.  Such a structure is the bytes that it points to. -/
def asIovecs (list : BufferViewList) : List (List UInt8) := list.views

def bytes (list : BufferViewList) : List UInt8 := list.views.flatten

@[simp] theorem bytes_ofBufferList (buffers : BufferList) :
    (ofBufferList buffers).bytes = buffers.concatenate := by
  rw [bytes, ofBufferList, BufferList.concatenate_eq, List.flatMap_def]

theorem size_eq (list : BufferViewList) : list.size = list.bytes.length := by
  rw [size, bytes, List.length_flatten, List.sum_eq_foldl, List.foldl_map]

/-- Discarding what is there keeps the rest. -/
theorem removePrefix_of_le {list : BufferViewList} {n : ℕ} (h : n ≤ list.size) :
    ∃ rest, list.removePrefix n = .ok rest ∧ rest.bytes = list.bytes.drop n := by
  rw [size_eq, bytes, ← List.flatMap_id] at h
  obtain ⟨views, hloop, hbytes⟩ : ∃ views, removePrefixLoop List.length
      (fun view n ↦ .ok (view.drop n)) (.outOfRange "BufferListView::remove_prefix") list.views n =
        .ok views ∧ views.flatMap id = (list.views.flatMap id).drop n :=
    removePrefixLoop_of_le (fun _ ↦ rfl) (fun view n _ ↦ ⟨view.drop n, rfl, rfl⟩) h
  refine ⟨⟨views⟩, by rw [removePrefix, hloop]; rfl, ?_⟩
  rw [List.flatMap_id, List.flatMap_id] at hbytes
  exact hbytes

theorem removePrefix_of_lt {list : BufferViewList} {n : ℕ} (h : list.size < n) :
    list.removePrefix n = .error (.outOfRange "BufferListView::remove_prefix") := by
  rw [size_eq, bytes, ← List.flatMap_id] at h
  have hloop : removePrefixLoop List.length (fun view n ↦ .ok (view.drop n))
      (.outOfRange "BufferListView::remove_prefix") list.views n = .error _ :=
    removePrefixLoop_of_lt (fun _ ↦ rfl) h
  rw [removePrefix, hloop]
  rfl

end BufferViewList

end Sponge
