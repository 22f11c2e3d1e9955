import Intcode.CommandLine.Call
import Intcode.Proofs.Failing

namespace Intcode.CommandLine.Directory

structure IsName (part : String) : Prop where
  undotted : part ≠ "."
  upward : part ≠ ".."
  short : ¬ maxPart < part.utf8ByteSize

inductive Leads (d : Directory) : Place → List String → Place → Prop where
  | last {folder : Place} {part : String} : IsName part → Leads d folder [part] (folder.child part)
  | stay {folder place : Place} {rest : List String}
    : Leads d folder rest place → Leads d folder ("." :: rest) place
  | up {folder place : Place} {rest : List String}
    : Leads d folder.up rest place → Leads d folder (".." :: rest) place
  | into {folder place : Place} {part : String} {rest : List String}
    : IsName part → d.file? (folder.child part) = none → d.isFolder (folder.child part) = true
      → Leads d (folder.child part) rest place → Leads d folder (part :: rest) place

def Found (d : Directory) (folder : Place) (parts : List String) : Entry → Prop
  | .file bytes => ∃ place, d.Leads folder parts place ∧ d.file? place = some bytes
  | .free place => d.Leads folder parts place ∧ d.file? place = none ∧ d.isFolder place = false
  | _ => True

variable {d d' : Directory} {folder place : Place} {parts : List String} {bytes : List UInt8}

theorem Found.imp {folder' : Place} {parts' : List String} {entry : Entry}
    (h : d.Found folder' parts' entry)
    (further : ∀ {place}, d.Leads folder' parts' place → d.Leads folder parts place)
    : d.Found folder parts entry := by
  cases entry with
  | file bytes =>
    obtain ⟨place, leads, held⟩ := h
    exact ⟨place, further leads, held⟩
  | free place => exact ⟨further h.1, h.2⟩
  | _ => trivial

theorem found_follow (d : Directory) (folder : Place) (parts : List String)
    : d.Found folder parts (d.follow folder parts) := by
  induction parts generalizing folder with
  | nil => trivial
  | cons part rest ih =>
    unfold follow
    split
    . next dot =>
      subst dot
      exact (ih folder).imp .stay
    . next undotted =>
      split
      . next dots =>
        subst dots
        exact (ih folder.up).imp .up
      . next upward =>
        split
        . trivial
        . next short =>
          have name : IsName part := ⟨undotted, upward, short⟩
          dsimp only
          split
          . next bytes held =>
            split
            . next last =>
              rw [List.isEmpty_iff.mp last]
              exact ⟨_, .last name, held⟩
            . trivial
          . next free =>
            split
            . next isFolder => exact (ih _).imp (.into name free isFolder)
            . next noFolder =>
              split
              . next last =>
                rw [List.isEmpty_iff.mp last]
                exact ⟨.last name, free, Bool.eq_false_iff.mpr noFolder⟩
              . trivial

theorem IsName.follow_last {part : String} (name : IsName part)
    (held : d.file? (folder.child part) = some bytes) : d.follow folder [part] = .file bytes := by
  rw [follow, if_neg name.undotted, if_neg name.upward, if_neg name.short]
  simp only [held, List.isEmpty_nil, if_true]

theorem IsName.follow_into {part : String} {rest : List String} (name : IsName part)
    (free : d.file? (folder.child part) = none) (isFolder : d.isFolder (folder.child part) = true)
    : d.follow folder (part :: rest) = d.follow (folder.child part) rest := by
  rw [follow, if_neg name.undotted, if_neg name.upward, if_neg name.short]
  simp only [free, isFolder, if_true]

theorem Leads.follow (h : d.Leads folder parts place) (held : d.file? place = some bytes)
    : d.follow folder parts = .file bytes := by
  induction h with
  | last name => exact name.follow_last held
  | stay _ ih => exact ih held
  | up _ ih => exact ih held
  | into name free isFolder _ ih =>
    rw [name.follow_into free isFolder]
    exact ih held

theorem Leads.along (h : d.Leads folder parts place) : folder.along parts = place := by
  induction h with
  | last name =>
    unfold Place.along
    rw [if_neg name.undotted, if_neg name.upward]
    rfl
  | stay _ ih => exact ih
  | up _ ih => exact ih
  | into name _ _ _ ih =>
    unfold Place.along
    rw [if_neg name.undotted, if_neg name.upward]
    exact ih

structure Keeps (d d' : Directory) : Prop where
  file {place : Place} {bytes : List UInt8}
    : d.file? place = some bytes → d'.file? place = some bytes
  folder {place : Place} : d.isFolder place = true → d'.isFolder place = true
  free {place : Place} : d.isFolder place = true → d.file? place = none → d'.file? place = none

theorem Keeps.refl (d : Directory) : Keeps d d :=
  ⟨id, id, fun _ => id⟩

theorem Keeps.trans {d'' : Directory} (first : Keeps d d') (second : Keeps d' d'')
    : Keeps d d'' where
  file h := second.file (first.file h)
  folder h := second.folder (first.folder h)
  free h free := second.free (first.folder h) (first.free h free)

theorem Leads.of_keeps (keeps : Keeps d d') (h : d.Leads folder parts place)
    : d'.Leads folder parts place := by
  induction h with
  | last name => exact .last name
  | stay _ ih => exact .stay ih
  | up _ ih => exact .up ih
  | into name free isFolder _ ih =>
    exact .into name (keeps.free isFolder free) (keeps.folder isFolder) ih

theorem keeps_folder (new : Place) : Keeps d { d with folders := new :: d.folders } where
  file := id
  folder {place} h := by
    unfold isFolder at h ⊢
    simp only [List.cons_append, List.any_cons, Bool.or_eq_true] at h ⊢
    exact h.imp (Or.imp id .inr) id
  free _ := id

theorem keeps_makeFolder {path : Path} (made : d.makeFolder path = .ok d') : Keeps d d' := by
  unfold makeFolder at made
  dsimp only at made
  split at made
  . contradiction
  . split at made
    . cases made
      exact keeps_folder _
    all_goals contradiction

theorem keeps_settle {path : Path} {result : Except SystemError Directory}
    (made : ∀ {d'}, result = .ok d' → Keeps d d') (settled : d.settle path result = .ok d')
    : Keeps d d' := by
  unfold settle at settled
  split at settled
  . cases settled
    exact made rfl
  . split at settled
    . cases settled
      exact .refl d
    . contradiction

theorem keeps_makeFolders {path : Path} (made : d.makeFolders path = .ok d') : Keeps d d' := by
  unfold makeFolders at made
  generalize path.parts.reverse = lastFirst at made
  induction lastFirst generalizing d' with
  | nil => exact keeps_settle keeps_makeFolder made
  | cons part before ih =>
    unfold makeFolders.go at made
    dsimp only at made
    split at made
    . cases first : makeFolders.go d path before with
      | error e =>
        rw [first] at made
        contradiction
      | ok d₁ =>
        rw [first] at made
        exact (ih first).trans (keeps_settle keeps_makeFolder made)
    . exact keeps_settle keeps_makeFolder made

theorem file?_put {new : Place} (other : place ≠ new) (bytes : List UInt8)
    : (d.put new bytes).file? place = d.file? place := by
  unfold file? put
  rw [List.find?_cons_of_neg]
  rw [beq_iff_eq]
  exact Ne.symm other

theorem isFolder_put (h : d.isFolder place = true) (new : Place) (bytes : List UInt8)
    : (d.put new bytes).isFolder place = true := by
  unfold isFolder put at *
  simp only [List.any_cons, Bool.or_eq_true] at h ⊢
  exact h.imp id .inr

theorem keeps_put {new : Place} (free : d.file? new = none) (noFolder : d.isFolder new = false)
    (bytes : List UInt8) : Keeps d (d.put new bytes) where
  file {place} _ held := by
    have other : place ≠ new := by
      rintro rfl
      rw [free] at held
      contradiction
    rw [file?_put other]
    exact held
  folder h := isFolder_put h new bytes
  free {place} isFolder free := by
    have other : place ≠ new := by
      rintro rfl
      rw [noFolder] at isFolder
      contradiction
    rw [file?_put other]
    exact free

theorem file?_put_self (d : Directory) (place : Place) (bytes : List UInt8)
    : ∃ held, (d.put place bytes).file? place = some held := by
  unfold file? put
  split
  . exact ⟨[], rfl⟩
  . rw [List.find?_cons_of_pos]
    . exact ⟨bytes, rfl⟩
    . exact beq_self_eq_true place

theorem found_lookup (d : Directory) (path : Path)
    : d.Found (Place.start path) path.parts (d.lookup path) := by
  unfold lookup
  split
  . trivial
  . exact found_follow d _ _

theorem lookup_of_readAs {shown : String} {path : Path} (read : d.readAs shown path = .ok bytes)
    : d.lookup path = .file bytes := by
  unfold readAs at read
  split at read
  . contradiction
  . split at read
    . next found =>
      cases read
      exact found
    all_goals contradiction

theorem place_of_readAs {shown : String} {path : Path} (read : d.readAs shown path = .ok bytes)
    : d.Leads (Place.start path) path.parts path.place ∧ d.file? path.place = some bytes := by
  have found := found_lookup d path
  rw [lookup_of_readAs read] at found
  obtain ⟨place, leads, held⟩ := found
  have here : path.place = place := leads.along
  rw [here]
  exact ⟨leads, held⟩

theorem makeFile_cases {path : Path} (made : d.makeFile path = .ok d')
    : Keeps d d' ∧ ∃ bytes, d'.file? path.place = some bytes := by
  unfold makeFile at made
  split at made
  . next place _ found =>
    cases made
    have found' := found_lookup d path
    rw [found] at found'
    obtain ⟨leads, free, noFolder⟩ := found'
    have here : path.place = place := leads.along
    rw [here]
    exact ⟨keeps_put free noFolder [], file?_put_self d place []⟩
  . contradiction
  . next read =>
    cases made
    exact ⟨.refl d, _, (place_of_readAs read).2⟩

theorem prepare_cases {name : String} (prepared : d.prepare name = .ok d')
    : Keeps d d' ∧ ∃ bytes, d'.file? (Path.ofString name).collapse.place = some bytes := by
  unfold prepare at prepared
  cases made : d.makeFolders (Path.ofString name).parent with
  | error e =>
    rw [made] at prepared
    contradiction
  | ok d₁ =>
    rw [made] at prepared
    obtain ⟨keeps, held⟩ := makeFile_cases prepared
    exact ⟨(keeps_makeFolders made).trans keeps, held⟩

theorem readAs_of_leads {shown : String} {path : Path} (read : d.readAs shown path = .ok bytes)
    (leads : d'.Leads (Place.start path) path.parts path.place)
    (held : d'.file? path.place = some bytes) : d'.readAs shown path = .ok bytes := by
  have found := lookup_of_readAs read
  have found' : d'.lookup path = .file bytes := by
    unfold lookup at found ⊢
    split at found
    . contradiction
    . next short => rw [if_neg short, leads.follow held]
  unfold readAs at read ⊢
  split at read
  . contradiction
  . next proper => rw [if_neg proper, found']

theorem read_of_prepare {name path : String} (prepared : d.prepare name = .ok d')
    (read : d.read path = .ok bytes) : d'.read path = .ok bytes := by
  obtain ⟨leads, held⟩ := place_of_readAs read
  obtain ⟨keeps, -⟩ := prepare_cases prepared
  exact readAs_of_leads read (leads.of_keeps keeps) (keeps.file held)

theorem Leads.put {new : Place} {old : List UInt8} (there : d.file? new = some old)
    (h : d.Leads folder parts place) (bytes : List UInt8)
    : (d.put new bytes).Leads folder parts place := by
  induction h with
  | last name => exact .last name
  | stay _ ih => exact .stay ih
  | up _ ih => exact .up ih
  | @into folder _ part _ name free isFolder _ ih =>
    refine .into name ?_ (isFolder_put isFolder new bytes) ih
    rw [file?_put ?_ bytes]
    . exact free
    . rintro rfl
      rw [there] at free
      contradiction

theorem read_of_append {name path : String} (prepared : d.prepare name = .ok d')
    (apart : (Path.ofString name).collapse.place ≠ (Path.ofString path).place)
    (read : d.read path = .ok bytes) (written : List UInt8)
    : (d'.append name written).read path = .ok bytes := by
  have read := read_of_prepare prepared read
  obtain ⟨leads, held⟩ := place_of_readAs read
  obtain ⟨-, _, there⟩ := prepare_cases prepared
  apply readAs_of_leads read (leads.put there _)
  exact (file?_put (Ne.symm apart) _).trans held

theorem read_of_startLog {clock : Channel → String} {name path : String}
    (apart : (Path.ofString name).collapse.place ≠ (Path.ofString path).place)
    (started : (startLog clock name d).result = .ok d') (read : d.read path = .ok bytes)
    : d'.read path = .ok bytes := by
  unfold startLog at started
  generalize [Channel.library, .commandLine] = channels at started
  induction channels generalizing d with
  | nil =>
    cases started
    exact read
  | cons channel channels ih =>
    unfold startLog.go at started
    split at started
    . contradiction
    . next prepared =>
      obtain ⟨-, -, started⟩ := Report.bind_eq_ok.mp started
      exact ih (read_of_append prepared apart read _) started

end Intcode.CommandLine.Directory
