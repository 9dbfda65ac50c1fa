import TripleLex.Proofs.Queries

/-!
# How keywords are spelled

A keyword may be written in any mixture of ASCII cases, and a keyword of two
words with any blank characters between them. `spelling` undoes both: it turns
letters into upper case and every run of blank characters into one space. A word
that is read as a keyword has the keyword's text for its spelling, and so have
two words with blank characters between them.

## Main results

* `spelling_of_ofWord?` — a keyword of one word.
* `spelling_of_twoWords` — a keyword of two words.
-/

namespace TripleLex.Query

/-! ## Spellings -/

/-- The text with every run of blank characters replaced by a space; `behind` says
that the character before was blank. -/
def squeezed (behind : Bool) : List Char → List Char
  | [] => []
  | c :: cs =>
    if Unicode.isBlank c then
      if behind then squeezed true cs else ' ' :: squeezed true cs
    else c :: squeezed false cs

/-- The text in ASCII upper case, with every run of blank characters replaced by a
space. -/
def spelling (text : List Char) : List Char := squeezed false (text.map Char.toUpper)

theorem squeezed_blank {cs : List Char} (h : ∀ c ∈ cs, Unicode.isBlank c = true)
    (rest : List Char) : squeezed true (cs ++ rest) = squeezed true rest := by
  induction cs with
  | nil => rfl
  | cons c cs ih =>
    rw [List.cons_append, squeezed, if_pos (h c List.mem_cons_self),
      if_pos rfl, ih fun d hd => h d (List.mem_cons_of_mem _ hd)]

/-- Blank characters between two texts are one space. -/
theorem squeezed_words {first gap second : List Char} {behind : Bool} (hne : first ≠ [])
    (hfirst : ∀ c ∈ first, Unicode.isBlank c = false) (hgap : gap ≠ [])
    (hblank : ∀ c ∈ gap, Unicode.isBlank c = true) :
    squeezed behind (first ++ gap ++ second) = first ++ ' ' :: squeezed true second := by
  induction first generalizing behind with
  | nil => exact absurd rfl hne
  | cons c first ih =>
    have hc := hfirst c List.mem_cons_self
    rw [List.cons_append, List.cons_append, squeezed, if_neg (by rw [hc]; exact nofun)]
    cases first with
    | nil =>
      obtain ⟨d, gap, rfl⟩ := List.exists_cons_of_ne_nil hgap
      rw [List.nil_append, List.cons_append, squeezed, if_pos (hblank d List.mem_cons_self),
        if_neg nofun, squeezed_blank fun e he => hblank e (List.mem_cons_of_mem _ he)]
      rfl
    | cons d first =>
      rw [ih (List.cons_ne_nil _ _) fun e he => hfirst e (List.mem_cons_of_mem _ he)]
      rfl

/-! ## Cases of letters -/

theorem toUpper_toLower (c : Char) : c.toLower.toUpper = c.toUpper := by
  by_cases h : c.toNat < 0x80
  · have hascii : ∀ n < 0x80, (Char.ofNat n).toLower.toUpper = (Char.ofNat n).toUpper := by
      decide +kernel
    have hc := hascii c.toNat h
    rwa [Char.ofNat_toNat] at hc
  · have hlower : c.toLower = c := by
      unfold Char.toLower
      refine dif_neg fun hc => h ?_
      have hle : c.toNat ≤ 0x5A := hc.2
      omega
    rw [hlower]

/-- Words that agree up to case agree in upper case. -/
theorem upper_of_sameWord {w v : List Char} (h : sameWord w v = true) :
    w.map Char.toUpper = v.map Char.toUpper := by
  have hupper : ∀ u : List Char, u.map Char.toUpper = (u.map Char.toLower).map Char.toUpper := by
    intro u
    rw [List.map_map]
    exact List.map_congr_left fun c _ => (toUpper_toLower c).symm
  rw [hupper w, hupper v, beq_iff_eq.1 h]

theorem toUpper_blank {c : Char} (h : Unicode.isBlank c = true) : c.toUpper = c := by
  by_cases hc : c.toNat < 0x80
  · have hascii : ∀ n < 0x80, Unicode.isBlank (Char.ofNat n) = true →
        (Char.ofNat n).toUpper = Char.ofNat n := by decide +kernel
    rw [← c.ofNat_toNat] at h ⊢
    exact hascii c.toNat hc h
  · unfold Char.toUpper
    refine dif_neg fun hl => hc ?_
    have hle : c.toNat ≤ 0x7A := hl.2
    omega

/-! ## Keywords -/

theorem spelling_text (w : Keyword) : spelling w.text.toList = w.text.toList := by
  cases w <;> decide +kernel

/-- A word that is read as a keyword is spelled as it. -/
theorem spelling_of_ofWord? {word : List Char} {w : Keyword}
    (h : Keyword.ofWord? word = some w) : spelling word = w.text.toList := by
  rw [spelling, ← upper_of_sameWord (Keyword.spelled_of_ofWord? h).2]
  exact spelling_text w

/-- Whatever blank characters stand between two words, they are spelled as if it were
a space. -/
theorem spelling_of_twoWords {first second : String} {word gap more : List Char}
    (hword : sameWord word first.toList = true) (hmore : sameWord more second.toList = true)
    (hgap : gap ≠ []) (hblank : ∀ c ∈ gap, Unicode.isBlank c = true) (hne : first.toList ≠ [])
    (hfirst : ∀ c ∈ first.toList.map Char.toUpper, Unicode.isBlank c = false) :
    spelling (word ++ gap ++ more) = spelling (first.toList ++ [' '] ++ second.toList) := by
  have hupper : ∀ {cs : List Char}, (∀ c ∈ cs, Unicode.isBlank c = true) →
      cs.map Char.toUpper = cs := fun h =>
    (List.map_congr_left fun c hc => toUpper_blank (h c hc)).trans (List.map_id _)
  have hspace : ∀ c ∈ [' '], Unicode.isBlank c = true := fun c hc => by
    rw [List.mem_singleton.1 hc]
    decide
  have hne' : first.toList.map Char.toUpper ≠ [] := by simpa using hne
  simp only [spelling, List.map_append]
  rw [upper_of_sameWord hword, upper_of_sameWord hmore, hupper hblank, hupper hspace,
    squeezed_words hne' hfirst hgap hblank,
    squeezed_words hne' hfirst (List.cons_ne_nil _ _) hspace]

end TripleLex.Query
