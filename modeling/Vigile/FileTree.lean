import Mathlib.Algebra.BigOperators.Group.List.Basic
import Mathlib.Data.List.Basic

/-! Trees of files, directories and symbolic links, and the sizes in them. -/

instance int64AddCommMonoid : AddCommMonoid Int64 where
  add_assoc := Int64.add_assoc
  zero_add := Int64.zero_add
  add_zero := Int64.add_zero
  add_comm := Int64.add_comm
  nsmul := nsmulRec

namespace FileTree

/-- What a stat call reports; the blocks are those of the stat structure, where there is one. -/
structure FileInfo where
  size : Int64
  blocks : Option Int64

mutual

/-- A file system object, every part of which can be read. -/
inductive Item where
  | file (info : FileInfo)
  | symlink (info : FileInfo) (target : List Char)
  | directory (info : FileInfo) (entries : Entries)

inductive Entries where
  | nil
  | cons (name : List Char) (item : Item) (rest : Entries)

end

def Item.info : Item → FileInfo
  | .file info => info
  | .symlink info _ => info
  | .directory info _ => info

def Item.isDir : Item → Bool
  | .directory _ _ => true
  | _ => false

end FileTree
