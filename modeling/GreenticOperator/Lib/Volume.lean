import Mathlib.Data.List.TakeDrop
import Mathlib.Logic.Function.Basic

/-!
# Volume — files that are open while their names move

A name links to a file, and a file has one name at most. An open file is written to under its number,
whatever its name has become: making a name empty again cuts the file that somebody may have open, and
moving a name takes along what is still written to.

What an operation does to the contents under a name is one equation each (`content_create`,
`content_writeAt`, `content_relink`).
-/

universe u

structure Volume (ν : Type u) where
  links : ν → Option Nat
  data : Nat → List UInt8
  next : Nat
  one_name : ∀ {a b : ν} {n : Nat}, links a = some n → links b = some n → a = b
  links_lt : ∀ {a : ν} {n : Nat}, links a = some n → n < next

namespace Volume

variable {ν : Type u}

def empty : Volume ν where
  links _ := none
  data _ := []
  next := 0
  one_name := nofun
  links_lt := nofun

def content (vol : Volume ν) (name : ν) : Option (List UInt8) := (vol.links name).map vol.data

/-- The file that is opened under a name: its own, or a new one. -/
def fileAt (vol : Volume ν) (name : ν) : Nat := (vol.links name).getD vol.next

theorem eq_of_links_fileAt {vol : Volume ν} {name other : ν} (h : vol.links other = some (vol.fileAt name)) :
    other = name := by
  unfold fileAt at h
  cases hname : vol.links name with
  | none =>
    rw [hname] at h
    exact absurd (vol.links_lt h) (Nat.lt_irrefl _)
  | some n =>
    rw [hname] at h
    exact vol.one_name h hname

theorem fileAt_lt (vol : Volume ν) (name : ν) : vol.fileAt name < vol.next + 1 := by
  unfold fileAt
  cases hname : vol.links name with
  | none => exact Nat.lt_succ_self _
  | some n => exact Nat.lt_succ_of_lt (vol.links_lt hname)

variable [DecidableEq ν]

/-- A name is opened to write; a file that is there is cut. -/
def create (vol : Volume ν) (name : ν) : Volume ν where
  links := Function.update vol.links name (some (vol.fileAt name))
  data := Function.update vol.data (vol.fileAt name) []
  next := vol.next + 1
  one_name := by
    intro a b n ha hb
    rw [Function.update_apply] at ha hb
    split at ha <;> split at hb
    next hname hother => exact hname.trans hother.symm
    next hname hother => exact hname.trans (eq_of_links_fileAt (hb.trans ha.symm)).symm
    next hname hother => exact (eq_of_links_fileAt (ha.trans hb.symm)).trans hother.symm
    next hname hother => exact vol.one_name ha hb
  links_lt := by
    intro a n ha
    rw [Function.update_apply] at ha
    split at ha
    next =>
      rw [← Option.some.inj ha]
      exact vol.fileAt_lt name
    next => exact Nat.lt_succ_of_lt (vol.links_lt ha)

/-- Bytes put at an offset, over what is there. -/
def overwrite (bytes : List UInt8) (offset : Nat) (chunk : List UInt8) : List UInt8 :=
  bytes.take offset ++ List.replicate (offset - bytes.length) 0 ++ chunk ++ bytes.drop (offset + chunk.length)

def writeAt (vol : Volume ν) (file offset : Nat) (chunk : List UInt8) : Volume ν :=
  { vol with data := Function.update vol.data file (overwrite (vol.data file) offset chunk) }

/-- A name is moved to another one, whose file loses its name. -/
def relink (vol : Volume ν) (source target : ν) : Volume ν where
  links := fun name => if name = target then vol.links source else if name = source then none else vol.links name
  data := vol.data
  next := vol.next
  one_name := by
    intro a b n ha hb
    split at ha <;> split at hb
    next hname hother => exact hname.trans hother.symm
    next hname hother =>
      split at hb
      · cases hb
      next hne => exact absurd (vol.one_name hb ha) hne
    next hname hother =>
      split at ha
      · cases ha
      next hne => exact absurd (vol.one_name ha hb) hne
    next hname hother =>
      split at ha <;> split at hb
      · cases ha
      · cases ha
      · cases hb
      · exact vol.one_name ha hb
  links_lt := by
    intro a n ha
    split at ha
    · exact vol.links_lt ha
    · split at ha
      · cases ha
      · exact vol.links_lt ha

/-! ## What is under a name afterwards -/

theorem content_create (vol : Volume ν) (name other : ν) :
    (vol.create name).content other = if other = name then some [] else vol.content other := by
  unfold content create
  dsimp only
  rw [Function.update_apply]
  split
  next => rw [Option.map_some, Function.update_self]
  next hne =>
    cases hother : vol.links other with
    | none => rfl
    | some n =>
      have hfile : n ≠ vol.fileAt name := fun heq => hne (eq_of_links_fileAt (heq ▸ hother))
      rw [Option.map_some, Option.map_some, Function.update_of_ne hfile]

theorem content_writeAt {vol : Volume ν} {name : ν} {file : Nat} (h : vol.links name = some file) (offset : Nat)
    (chunk : List UInt8) (other : ν) : (vol.writeAt file offset chunk).content other
      = if other = name then some (overwrite (vol.data file) offset chunk) else vol.content other := by
  unfold content writeAt
  dsimp only
  split
  next heq => rw [heq, h, Option.map_some, Function.update_self]
  next hne =>
    cases hother : vol.links other with
    | none => rfl
    | some n =>
      have hfile : n ≠ file := fun heq => hne (vol.one_name (heq ▸ hother) h)
      rw [Option.map_some, Option.map_some, Function.update_of_ne hfile]

theorem content_relink (vol : Volume ν) (source target other : ν) : (vol.relink source target).content other
    = if other = target then vol.content source else if other = source then none else vol.content other := by
  unfold content relink
  dsimp only
  split
  · rfl
  · split <;> rfl

/-- Going on where one left off. -/
theorem overwrite_take (bytes : List UInt8) {offset : Nat} (h : offset ≤ bytes.length) (n : Nat) :
    overwrite (bytes.take offset) offset ((bytes.drop offset).take n)
      = bytes.take (offset + ((bytes.drop offset).take n).length) := by
  have hlength : (bytes.take offset).length = offset := List.length_take_of_le h
  have hdrop : (bytes.take offset).drop (offset + ((bytes.drop offset).take n).length) = [] :=
    List.drop_eq_nil_of_le (by omega)
  have hchunk : (bytes.drop offset).take n = (bytes.drop offset).take ((bytes.drop offset).take n).length :=
    List.prefix_iff_eq_take.mp (List.take_prefix n _)
  rw [overwrite, hdrop, hlength, Nat.sub_self, List.replicate_zero, List.take_take, Nat.min_self, List.append_nil,
    List.append_nil, List.take_add, ← hchunk]

end Volume
