import Mathlib.Tactic.Common
import Crossing.Host.Tree

/-!
# Files keep what is written to them

A file system is *lawful* if a file holds what was last written to it, by whichever path, until
something else is written to the same file. To make directories does nothing to files. Trees are
lawful: two paths lead to the same file if they lead to the same place.

Paths may have dots and slashes in them and may go up and down, so they are followed through the
tree first (`Leads`), and all that is said about files is said about places. To put a file somewhere
changes no directory, and to make a directory changes no file, even if it fails halfway
(`extends_createBelow`). Main statement: `Tree.lawful_fileSystem`.
-/

namespace Crossing.Host

/-- A file system whose files keep what is written to them. `Same f p q` says that among the files
`f` both paths lead to one file. -/
structure FileSystem.Lawful {F : Type} (files : FileSystem (StateM F))
    (Same : F → String → String → Prop) : Prop where
  same_self {p : String} {bs : List UInt8} {f f' : F} (h : files.write p bs f = (.ok (), f')) :
    Same f' p p
  read_same {p q : String} {bs : List UInt8} {f f' : F} (h : files.write p bs f = (.ok (), f'))
    (hsame : Same f' p q) : (files.read q f').1 = .ok bs
  read_other {p q : String} {bs cs : List UInt8} {f f' : F}
    (h : files.write p bs f = (.ok (), f')) (hother : ¬Same f' p q)
    (hread : (files.read q f).1 = .ok cs) : (files.read q f').1 = .ok cs
  read_createDirs {p dir : String} {bs : List UInt8} {f : F} (hread : (files.read p f).1 = .ok bs) :
    (files.read p (files.createDirs dir f).2).1 = .ok bs

namespace Tree

/-! ### Places -/

/-- Whether all directories of one tree are in another, seen from the same base. -/
structure Within (t t' : Tree) : Prop where
  base : t'.base = t.base
  isDirectory {place : List String} (h : t.isDirectory place) : t'.isDirectory place

/-- A walk that arrives also does so where there is more. -/
theorem Within.walk {t t' : Tree} (h : t.Within t') {start ns place : List String}
    (hwalk : t.walk start ns = .ok place) : t'.walk start ns = .ok place := by
  fun_induction Tree.walk t start ns with
  | case1 => exact hwalk
  | case2 start ns ih => exact ih hwalk
  | case3 start ns ih => exact ih hwalk
  | case4 => cases hwalk
  | case5 start n ns hdot hdots hlong hdir ih =>
    rw [Tree.walk, if_neg hlong, if_pos (h.isDirectory hdir)]
    · exact ih hwalk
    · exact hdot
    · exact hdots
  | case6 => cases hwalk
  | case7 => cases hwalk

/-- A path that can be followed can be followed where there is more. -/
theorem Within.follow {t t' : Tree} (h : t.Within t') {place names : List String}
    {r : List String × Option String} (hfollow : t.follow place names = .ok r) :
    t'.follow place names = .ok r := by
  have map_ok {f : List String → List String × Option String} {ns : List String}
      (hmap : (t.walk place ns).map f = .ok r) : (t'.walk place ns).map f = .ok r := by
    cases hwalk : t.walk place ns with
    | error e =>
      rw [hwalk] at hmap
      cases hmap
    | ok dir => rwa [h.walk hwalk, ← hwalk]
  rw [Tree.follow] at hfollow ⊢
  split at hfollow
  · exact hfollow
  · split_ifs at hfollow ⊢
    · exact map_ok hfollow
    · exact map_ok hfollow

/-- What is located stays where it is. -/
theorem Within.locate {t t' : Tree} (h : t.Within t') {path : String}
    {r : List String × Option String} (hlocate : t.locate path = .ok r) :
    t'.locate path = .ok r := by
  rw [Tree.locate] at hlocate ⊢
  rw [Tree.start, h.base]
  split at hlocate
  · cases hlocate
  · exact h.follow hlocate

/-- `t.Leads path place` says that a file at a place can be reached by a path. -/
structure Leads (t : Tree) (path : String) (place : List String) : Prop where
  located : ∃ dir n, t.locate path = .ok (dir, some n) ∧ place = dir ++ [n] ∧ ¬Path.isLongName n
  isPlain : ¬Path.endsInSlash path

/-- A path leads to one place at most. -/
theorem Leads.eq {t : Tree} {path : String} {place place' : List String} (h : t.Leads path place)
    (h' : t.Leads path place') : place = place' := by
  obtain ⟨dir, n, hlocate, rfl, -⟩ := h.located
  obtain ⟨dir', n', hlocate', rfl, -⟩ := h'.located
  rw [hlocate] at hlocate'
  cases hlocate'
  rfl

/-- A path leads to the same place where there is more. -/
theorem Within.leads {t t' : Tree} (h : t.Within t') {path : String} {place : List String}
    (hleads : t.Leads path place) : t'.Leads path place := by
  obtain ⟨⟨dir, n, hlocate, hplace⟩, hplain⟩ := hleads
  exact ⟨⟨dir, n, h.locate hlocate, hplace⟩, hplain⟩

/-- Whether two paths lead to the same file. -/
def Same (t : Tree) (p q : String) : Prop := ∃ place, t.Leads p place ∧ t.Leads q place

/-! ### Reading and writing -/

/-- What has to be so for a file to be found at a place. -/
theorem lookAt_eq_file_iff {t : Tree} {path n : String} {dir : List String} {bs : List UInt8} :
    t.lookAt path (dir, some n) = .ok (.file bs) ↔
      ¬Path.isLongName n ∧ t.isDirectory (dir ++ [n]) = false ∧
        t.octets? (dir ++ [n]) = some bs ∧ ¬Path.endsInSlash path := by
  rw [lookAt]
  by_cases hlong : Path.isLongName n
  · simp [hlong]
  · by_cases hdir : t.isDirectory (dir ++ [n])
    · simp [hdir, hlong]
    · rw [if_neg hlong, if_neg hdir]
      cases t.octets? (dir ++ [n]) with
      | none => simp
      | some cs => by_cases hslash : Path.endsInSlash path <;> simp [hlong, hdir, hslash]

/-- What is read is what is at the place that the path leads to. -/
theorem read_eq_ok_iff {t : Tree} {path : String} {bs : List UInt8} :
    t.read path = .ok bs ↔
      ∃ place, t.Leads path place ∧ t.isDirectory place = false ∧ t.octets? place = some bs := by
  have hfind : t.read path = .ok bs ↔ t.find path = .ok (.file bs) := by
    rw [read]
    split <;> simp_all
  rw [hfind, find]
  constructor
  · rcases hlocate : t.locate path with e | ⟨dir, _ | n⟩
    · exact nofun
    · exact nofun
    · intro h
      obtain ⟨hlong, hdir, hoctets, hplain⟩ := lookAt_eq_file_iff.1 h
      exact ⟨_, ⟨⟨dir, n, hlocate, rfl, hlong⟩, hplain⟩, hdir, hoctets⟩
  · rintro ⟨place, ⟨⟨dir, n, hlocate, rfl, hlong⟩, hplain⟩, hdir, hoctets⟩
    rw [hlocate]
    exact lookAt_eq_file_iff.2 ⟨hlong, hdir, hoctets, hplain⟩

/-- What is written is put at the place that the path leads to. -/
theorem write_eq_ok_iff {t t' : Tree} {path : String} {bs : List UInt8} :
    write path bs t = (.ok (), t') ↔
      ∃ place, t.Leads path place ∧ t.isDirectory place = false ∧ t' = t.put place bs := by
  rw [write]
  constructor
  · rcases hlocate : t.locate path with e | ⟨dir, _ | n⟩
    · exact nofun
    · exact nofun
    · dsimp only
      split_ifs with hslash hlong hdir
      · exact nofun
      · exact nofun
      · exact nofun
      · intro h
        exact ⟨_, ⟨⟨dir, n, hlocate, rfl, hlong⟩, hslash⟩, by simpa using hdir,
          (congrArg Prod.snd h).symm⟩
  · rintro ⟨place, ⟨⟨dir, n, hlocate, rfl, hlong⟩, hplain⟩, hdir, rfl⟩
    rw [hlocate]
    dsimp only
    rw [if_neg hplain, if_neg hlong, if_neg (by simp [hdir])]

/-- A file that is put somewhere changes no path. -/
theorem leads_put {t : Tree} {place other : List String} {bs : List UInt8} {path : String} :
    (t.put place bs).Leads path other ↔ t.Leads path other :=
  have hput : t.Within (t.put place bs) := ⟨rfl, id⟩
  have hback : (t.put place bs).Within t := ⟨rfl, id⟩
  ⟨hback.leads, hput.leads⟩

/-- A file that is put somewhere is found there. -/
theorem octets?_put_self (t : Tree) (place : List String) (bs : List UInt8) :
    (t.put place bs).octets? place = some bs := by
  simp [octets?, put]

theorem octets?_put_of_ne {t : Tree} {place other : List String} (h : other ≠ place)
    (bs : List UInt8) : (t.put place bs).octets? other = t.octets? other := by
  have hfilter (fs : List (List String × List UInt8)) :
      (fs.filter fun f ↦ f.1 != place).lookup other = fs.lookup other := by
    induction fs with
    | nil => rfl
    | cons f fs ih =>
      by_cases hf : f.1 = place
      · have hother : (other == f.1) = false := by simpa [hf] using h
        rw [List.filter_cons_of_neg (by simp [hf]), ih, List.lookup_cons, hother]
      · rw [List.filter_cons_of_pos (by simp [hf]), List.lookup_cons, List.lookup_cons, ih]
  have hplace : (other == place) = false := by simpa using h
  rw [octets?, put, List.lookup_cons, hplace]
  exact hfilter t.files

/-! ### Making directories -/

/-- Whether one tree is another with more directories, none of them in the place of a file. -/
structure Extends (t t' : Tree) : Prop where
  within : t.Within t'
  files : t'.files = t.files
  isDirectory {place : List String} {bs : List UInt8} (h : t.octets? place = some bs) :
    t'.isDirectory place = t.isDirectory place

/-- Directories that are added change no file. -/
theorem Extends.octets? {t t' : Tree} (h : t.Extends t') (place : List String) :
    t'.octets? place = t.octets? place := by
  rw [Tree.octets?, h.files, Tree.octets?]

theorem Extends.refl (t : Tree) : t.Extends t := ⟨⟨rfl, id⟩, rfl, fun _ ↦ rfl⟩

theorem Extends.trans {t t' t'' : Tree} (h : t.Extends t') (h' : t'.Extends t'') : t.Extends t'' :=
  ⟨⟨h'.within.base.trans h.within.base,
      fun hdir ↦ h'.within.isDirectory (h.within.isDirectory hdir)⟩,
    h'.files.trans h.files, fun {place _} hoctets ↦
      (h'.isDirectory ((h.octets? place).trans hoctets)).trans (h.isDirectory hoctets)⟩

/-- What could be read can still be read. -/
theorem Extends.read {t t' : Tree} (h : t.Extends t') {path : String} {bs : List UInt8}
    (hread : t.read path = .ok bs) : t'.read path = .ok bs := by
  obtain ⟨place, hleads, hdir, hoctets⟩ := read_eq_ok_iff.1 hread
  exact read_eq_ok_iff.2 ⟨place, h.within.leads hleads, (h.isDirectory hoctets).trans hdir,
    (h.octets? place).trans hoctets⟩

/-- To make a directory changes nothing that is there, even if it fails. -/
theorem extends_createDir (path : String) (t : Tree) : t.Extends (createDir path t).2 := by
  rw [createDir]
  rcases t.locate path with e | ⟨dir, _ | n⟩
  · exact .refl t
  · exact .refl t
  · dsimp only
    split_ifs with hlong hpresent
    · exact .refl t
    · exact .refl t
    · obtain ⟨-, hfile⟩ := Bool.or_eq_false_iff.1 (Bool.eq_false_iff.2 hpresent)
      refine ⟨⟨rfl, fun hdir ↦ ?_⟩, rfl, fun {place bs} hoctets ↦ ?_⟩
      · rw [isDirectory, Bool.or_eq_true] at hdir ⊢
        exact hdir.imp_right fun hmem ↦ by simp [List.contains_iff_mem.1 hmem]
      · have hplace : place ≠ dir ++ [n] := by
          rintro rfl
          simp [hoctets] at hfile
        simp [isDirectory, hplace]

/-- Whether a directory that is there counts as made only changes the answer. -/
theorem orPresent_snd (path : String) (r : Except FileError Unit × Tree) :
    (orPresent path r).2 = r.2 := by
  rcases r with ⟨e | ⟨⟩, t⟩ <;> rfl

/-- To make directories one below the other changes nothing that is there. -/
theorem extends_createBelow (absolute : Bool) (ns : List String) (t : Tree) :
    t.Extends (createBelow absolute ns t).2 := by
  induction ns generalizing t with
  | nil => exact .refl t
  | cons n ns ih =>
    have hmade := extends_createDir (Path.join absolute (n :: ns).reverse) t
    rw [createBelow]
    split
    · next t' hmissing =>
      rw [hmissing] at hmade
      have habove := hmade.trans (ih t')
      split
      · next t'' hdone =>
        rw [hdone] at habove
        rw [orPresent_snd]
        exact habove.trans (extends_createDir _ t'')
      · exact habove
    · rw [orPresent_snd]
      exact hmade

/-! ### Trees as file systems -/

/-- Files in memory keep what is written to them. -/
theorem lawful_fileSystem : fileSystem.Lawful Same where
  same_self h := by
    obtain ⟨place, hleads, -, rfl⟩ := write_eq_ok_iff.1 h
    exact ⟨place, leads_put.2 hleads, leads_put.2 hleads⟩
  read_same h hsame := by
    obtain ⟨place, hleads, hdir, rfl⟩ := write_eq_ok_iff.1 h
    obtain ⟨place', hp, hq⟩ := hsame
    cases (leads_put.1 hp).eq hleads
    exact read_eq_ok_iff.2 ⟨place, hq, hdir, octets?_put_self _ _ _⟩
  read_other h hother hread := by
    obtain ⟨place, hleads, hdir, rfl⟩ := write_eq_ok_iff.1 h
    obtain ⟨place', hleads', hdir', hoctets⟩ := read_eq_ok_iff.1 hread
    have hne : place' ≠ place := by
      rintro rfl
      exact hother ⟨_, leads_put.2 hleads, leads_put.2 hleads'⟩
    exact read_eq_ok_iff.2 ⟨place', leads_put.2 hleads', hdir',
      (octets?_put_of_ne hne _).trans hoctets⟩
  read_createDirs hread := (extends_createBelow _ _ _).read hread

end Tree

end Crossing.Host
