/-!
# Segments

A text as the segments between its slashes. Nothing but the slashes is lost, and no segment holds
one.
-/

namespace LidarSync.Text

/-- The parts of a list between its separators; there is one more of them than there are
separators. -/
def cut (separator : Char) : List Char → List (List Char)
  | [] => [[]]
  | c :: rest =>
    if c = separator then [] :: cut separator rest
    else match cut separator rest with
      | [] => [[c]]
      | part :: others => (c :: part) :: others

variable {separator : Char}

theorem cut_ne_nil (cs : List Char) : cut separator cs ≠ [] := by
  fun_cases cut separator cs <;> simp_all

theorem cut_cons_self (cs : List Char) :
    cut separator (separator :: cs) = [] :: cut separator cs := by
  simp [cut]

theorem cut_cons_of_ne {c : Char} (h : c ≠ separator) (cs : List Char) :
    ∃ part others, cut separator cs = part :: others ∧
      cut separator (c :: cs) = (c :: part) :: others := by
  match hcs : cut separator cs with
  | [] => exact absurd hcs (cut_ne_nil cs)
  | part :: others => exact ⟨part, others, rfl, by simp [cut, h, hcs]⟩

theorem not_mem_of_mem_cut {cs part : List Char} (h : part ∈ cut separator cs) :
    separator ∉ part := by
  induction cs generalizing part with
  | nil => simp_all [cut]
  | cons c cs ih =>
    by_cases hc : c = separator
    · subst hc
      rw [cut_cons_self, List.mem_cons] at h
      rcases h with rfl | h
      · simp
      · exact ih h
    · obtain ⟨first, others, hcut, hcons⟩ := cut_cons_of_ne hc cs
      rw [hcons, List.mem_cons] at h
      rcases h with rfl | h
      · have hfirst : separator ∉ first := ih (by simp [hcut])
        simp [hfirst, Ne.symm hc]
      · exact ih (by simp [hcut, h])

theorem cut_append (as bs : List Char) :
    cut separator (as ++ separator :: bs) = cut separator as ++ cut separator bs := by
  induction as with
  | nil => simp [cut]
  | cons a as ih =>
    by_cases ha : a = separator
    · subst ha
      simp [cut_cons_self, ih]
    · obtain ⟨part, others, hcut, hcons⟩ := cut_cons_of_ne ha as
      simp [cut, ha, ih, hcut]

theorem cut_eq_singleton {cs : List Char} (h : separator ∉ cs) : cut separator cs = [cs] := by
  induction cs with
  | nil => rfl
  | cons c cs ih =>
    simp only [List.mem_cons, not_or] at h
    simp [cut, Ne.symm h.1, ih h.2]

def segments (s : String) : List String := (cut '/' s.toList).map String.ofList

theorem segments_append (s t : String) : segments (s ++ "/" ++ t) = segments s ++ segments t := by
  simp [segments, String.toList_append, ← List.map_append, ← cut_append]

end LidarSync.Text
