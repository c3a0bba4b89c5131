import StyleBundle.Proofs.Keyframes

/-!
# StyleBundle.Proofs.FrameOrder

The order of the progress of frames. Numbers other than the one that is none lie on one line
(`Number.position`), integers and doubles alike, and are compared by where they lie there
(`Number.less_eq`, `Number.same_eq`).

`RawFrame.InOrder`: frames put in the order of their progress, those at the same one in the order
they had. `RawFrame.sort` puts them so if all progress is a number (`RawFrame.sort_inOrder`).
-/

namespace StyleBundle

namespace Number

/-- The number that is none. -/
def nan : Number := .double .nan

/-- Where a number lies. -/
def position (n : Number) : Int ×ₗ Int := toLex (n.coordinate.getD (0, 0))

theorem coordinate_eq {n : Number} (h : n ≠ nan) : n.coordinate = some (ofLex n.position) := by
  unfold position
  cases n with
  | int n => rfl
  | double d =>
    cases d with
    | nan => exact absurd rfl h
    | infinite negative => rfl
    | finite negative units => rfl

variable {m n : Number}

theorem less_eq (hm : m ≠ nan) (hn : n ≠ nan) : m.less n = decide (m.position < n.position) := by
  unfold less
  rw [coordinate_eq hm, coordinate_eq hn, Bool.eq_iff_iff]
  simp [Prod.Lex.lt_iff]

theorem same_eq (hm : m ≠ nan) (hn : n ≠ nan) : m.same n = decide (m.position = n.position) := by
  unfold same
  rw [coordinate_eq hm, coordinate_eq hn, Bool.eq_iff_iff]
  simp

theorem same_nan (m : Number) : m.same nan = false := by
  unfold same
  cases m.coordinate <;> rfl

end Number

namespace RawFrame

/-- Frames in the order of their progress. -/
structure InOrder (frames sorted : List RawFrame) : Prop where
  perm : sorted.Perm frames
  ascending : sorted.Pairwise fun f g => g.progress.less f.progress = false
  stable : ∀ n : Number,
    sorted.filter (·.progress.same n) = frames.filter (·.progress.same n)

/-- Where the progress of a frame lies. -/
def position (f : RawFrame) : Int ×ₗ Int := f.progress.position

variable {frames : List RawFrame}

theorem compares_position (h : ∀ f ∈ frames, f.progress ≠ .nan) :
    Sorting.Compares (fun f g : RawFrame => f.progress.less g.progress) position frames :=
  fun f hf g hg => Number.less_eq (h f hf) (h g hg)

theorem filter_same {n : Number} (hn : n ≠ .nan) (h : ∀ f ∈ frames, f.progress ≠ .nan) :
    frames.filter (·.progress.same n) = frames.filter (position · = n.position) :=
  List.filter_congr fun f hf => Number.same_eq (h f hf) hn

theorem sort_inOrder (h : ∀ f ∈ frames, f.progress ≠ .nan) : InOrder frames (sort frames) := by
  have hsorted : ∀ f ∈ sort frames, f.progress ≠ .nan := fun f hf => h f (mem_sort.mp hf)
  have hcompares := compares_position h
  refine ⟨Sorting.sort_perm _ _, ?_, ?_⟩
  · refine (Sorting.sort_ascending hcompares).imp_of_mem ?_
    intro f g hf hg hle
    rw [Number.less_eq (hsorted g hg) (hsorted f hf), decide_eq_false_iff_not, not_lt]
    exact hle
  · intro n
    by_cases hn : n = .nan
    · have hnone (l : List RawFrame) : l.filter (·.progress.same n) = [] := by
        simp [hn, Number.same_nan]
      rw [hnone, hnone]
    · rw [filter_same hn hsorted, filter_same hn h]
      exact Sorting.sort_filter hcompares _

end RawFrame

/-- Frames of keyframes whose percentages are numbers have numbers as their progress. -/
theorem Keyframes.rawFrames_ne_nan {ctx : BuildContext} {read : Declaration → List Instruction}
    {k : Keyframes}
    (h : ∀ f ∈ k.frames, ∀ o ∈ f.offsets, o ≠ .percentage (some .nan)) :
    ∀ f ∈ k.rawFrames ctx read, f.progress ≠ .nan := by
  intro f hf hnan
  obtain ⟨frame, hframe, ⟨o, ho, hprogress⟩, -, -⟩ := Keyframes.mem_rawFrames hf
  rw [hnan] at hprogress
  cases o with
  | start => cases hprogress
  | finish => cases hprogress
  | percentage value =>
    cases hprogress
    exact h frame hframe _ ho rfl
  | other kind value => cases hprogress

end StyleBundle
