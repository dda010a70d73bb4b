import TwoStage.Proofs.Files.Growth

/-!
# What is written

Writing puts the contents into one file and changes nothing else. Where no links are, that file is
the one that the path leads to.
-/

namespace TwoStage.Files

variable {fs fs' : Files} {p : Path} {contents : ByteArray} {origin : Location}
  {jump : Location → Path → Except FileError Files}

/-- What a path names is written to as it stands, unless it is a link: then its target is. -/
lemma writeWith_cases (h : fs.writeWith contents jump origin p = .ok fs') :
    ∃ before name above, p.parts = (before, .name name false) ∧
      fs.directoryAt origin before = .ok above ∧ checkName name = .ok () ∧
      ((∃ mode, ¬ fs.IsDirectory (above ++ [name]) ∧
          fs' = fs.put (above ++ [name]) (.file contents mode)) ∨
        ∃ target, fs.node? (above ++ [name]) = some (.link target) ∧
          jump (if target.absolute then [] else above) target = .ok fs') := by
  unfold writeWith at h
  cases hparts : p.parts with
  | mk before ending =>
    rw [hparts] at h
    obtain ⟨above, habove, h⟩ := Outcome.bind_eq_ok_iff.1 h
    obtain ⟨slot, hslot, h⟩ := Outcome.bind_eq_ok_iff.1 h
    cases ending with
    | dots =>
      obtain rfl := Except.ok.inj hslot
      simp at h
    | name name closed =>
      obtain ⟨⟨⟩, hname, rfl⟩ := Outcome.map_eq_ok_iff.1 hslot
      cases closed with
      | true => simp at h
      | false =>
        refine ⟨before, name, above, rfl, habove, hname, ?_⟩
        dsimp only at h
        split at h
        next hnode =>
          exact .inl ⟨_, by simp [IsDirectory, hnode], (Outcome.pure_eq_ok_iff.1 h).symm⟩
        next hnode =>
          exact .inl ⟨_, by simp [IsDirectory, hnode], (Outcome.pure_eq_ok_iff.1 h).symm⟩
        next => simp at h
        next target hnode => exact .inr ⟨target, hnode, h⟩

/-- The file that is written; the links only decide where it is. -/
lemma exists_of_writeFrom {links : Nat} (h : fs.writeFrom contents links origin p = .ok fs') :
    ∃ place mode, fs' = fs.put place (.file contents mode) := by
  induction links generalizing origin p with
  | zero =>
    obtain ⟨-, name, above, -, -, -, ⟨mode, -, rfl⟩ | ⟨target, -, hjump⟩⟩ := writeWith_cases h
    · exact ⟨above ++ [name], mode, rfl⟩
    · simp at hjump
  | succ links ih =>
    obtain ⟨-, name, above, -, -, -, ⟨mode, -, rfl⟩ | ⟨target, -, hjump⟩⟩ := writeWith_cases h
    · exact ⟨above ++ [name], mode, rfl⟩
    · exact ih hjump

lemma exists_of_write (h : fs.write p contents = .ok fs') :
    ∃ place mode, fs' = fs.put place (.file contents mode) := by
  obtain ⟨⟨⟩, -, h⟩ := Outcome.bind_eq_ok_iff.1 h
  exact exists_of_writeFrom h

/-- Without links, writing is replacing. -/
lemma exists_replace_of_write (hlinks : fs.LinkFree) (h : fs.write p contents = .ok fs') :
    ∃ mode, fs.replace p contents mode = .ok fs' := by
  obtain ⟨⟨⟩, hcheck, h⟩ := Outcome.bind_eq_ok_iff.1 h
  obtain ⟨before, name, above, hparts, habove, hname, hcases⟩ := writeWith_cases h
  have hslot : fs.slot? p = .ok (some (above ++ [name], false)) := by
    rw [slot?, hcheck]
    simp [bind, Except.bind, hparts, habove, named?, hname, Except.map]
  rcases hcases with ⟨mode, hnode, rfl⟩ | ⟨target, hnode, -⟩
  · refine ⟨mode, ?_⟩
    refine Outcome.bind_eq_ok_iff.2 ⟨_, hslot, ?_⟩
    dsimp only
    split
    next mode' hdirectory => exact absurd ⟨mode', hdirectory⟩ hnode
    next => rfl
  · exact absurd hnode (hlinks _ _)

/-- What has been written is read again. -/
lemma readText_of_write (hlinks : fs.LinkFree) {s : String} (h : fs.write p s.toUTF8 = .ok fs') :
    fs'.readText p = .ok s := by
  obtain ⟨mode, hreplace⟩ := exists_replace_of_write hlinks h
  exact readText_of_toUTF8 (replace_eq_ok hlinks hreplace).2

end TwoStage.Files
