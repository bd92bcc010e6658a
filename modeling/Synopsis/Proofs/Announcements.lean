import Mathlib.Data.List.Infix
import Mathlib.Data.List.TakeWhile
import Synopsis.Coercion
import Synopsis.Proofs.Folding

/-!
Announced defaults. A text that holds no announcement of its own may stand in front of one, with a
space between them. The default that is announced may hold brackets, blanks or another announcement.
-/
namespace Synopsis

namespace Coercion

def opening : List Char := ['[', 'd', 'e', 'f', 'a', 'u', 'l', 't', ':']

/-- The text does not hold the beginning of an announcement in any mixture of cases. -/
def Unannounced (cs : List Char) : Prop := ¬ opening <:+: cs.map Char.toLower

instance (cs : List Char) : Decidable (Unannounced cs) :=
  inferInstanceAs (Decidable (¬ opening <:+: cs.map Char.toLower))

variable {cs rest v : List Char}

theorem Unannounced.within {ds : List Char} (h : Unannounced cs) (hd : ds <:+: cs) :
    Unannounced ds := fun hp => h (hp.trans (hd.map Char.toLower))

theorem map_toLower_of_folds {word head : List Char} (hw : 's' ∉ word)
    (h : Text.Folds word head) : head.map Char.toLower = word := by
  induction h with
  | nil => rfl
  | @cons w c word head hc hhead ih =>
    have hne : w ≠ 's' := fun he => hw (he ▸ List.mem_cons_self)
    rw [List.map_cons, Text.toLower_of_foldsTo hne hc,
      ih fun hs => hw (List.mem_cons_of_mem w hs)]

/-- Where such a text is followed by a space, no announcement begins in it or at the space. -/
theorem dropFolded_of_unannounced (h : Unannounced cs) (rest : List Char) :
    Text.dropFolded announcement (cs ++ ' ' :: rest) = none := by
  by_contra hsome
  obtain ⟨behind, hdrop⟩ := Option.ne_none_iff_exists'.mp hsome
  obtain ⟨head, htext, hfolds⟩ := Text.dropFolded_eq_some_iff.mp hdrop
  let part := head.take opening.length
  have hlower : part.map Char.toLower = opening := by
    rw [List.map_take, map_toLower_of_folds (by decide) hfolds]
    rfl
  have hspace : ' ' ∉ part := by
    intro hm
    have hfolded := List.mem_map_of_mem (f := Char.toLower) hm
    rw [hlower] at hfolded
    exact absurd hfolded (by decide)
  have hpart : part <+: cs ++ ' ' :: rest := by
    rw [htext]
    exact (List.take_prefix _ head).trans (List.prefix_append head behind)
  have hwithin : part <+: cs := by
    rcases List.prefix_or_prefix_of_prefix hpart (List.prefix_append cs _) with hp | ⟨more, hmore⟩
    · exact hp
    · cases more with
      | nil => rw [← hmore, List.append_nil]
      | cons c more =>
        rw [← hmore, List.prefix_append_right_inj, List.cons_prefix_cons] at hpart
        exact absurd (by simp [← hmore, hpart.1]) hspace
  apply h
  rw [← hlower]
  exact hwithin.isInfix.map Char.toLower

theorem announced_append (h : Unannounced cs) (rest : List Char) :
    announced (cs ++ ' ' :: rest) = announced rest := by
  induction cs with
  | nil =>
    have hnone := dropFolded_of_unannounced h rest
    rw [List.nil_append] at hnone ⊢
    rw [announced, hnone, Option.bind_none]
  | cons c cs ih =>
    have hnone := dropFolded_of_unannounced h rest
    rw [List.cons_append] at hnone ⊢
    rw [announced, hnone, Option.bind_none]
    exact ih (h.within (List.suffix_cons c cs).isInfix)

theorem untilLast?_concat (c : Char) (cs : List Char) : untilLast? c (cs ++ [c]) = some cs := by
  simp [untilLast?]

theorem announced_announcement (hv : '\n' ∉ v) :
    announced (announcement ++ (v ++ [']'])) = some v := by
  have hdrop : Text.dropFolded announcement (announcement ++ (v ++ [']'])) = some (v ++ [']']) :=
    Text.dropFolded_eq_some_iff.mpr ⟨announcement, rfl, by decide⟩
  have htake : (v ++ [']']).takeWhile (· != '\n') = v ++ [']'] := by
    apply List.takeWhile_eq_self_iff.mpr
    intro c hc
    rcases List.mem_append.mp hc with hc | hc
    · exact bne_iff_ne.mpr fun he => hv (he ▸ hc)
    · rw [List.mem_singleton.mp hc]
      decide
  have hcons : announcement ++ (v ++ [']']) = '[' :: (announcement.tail ++ (v ++ [']'])) := rfl
  rw [hcons] at hdrop ⊢
  rw [announced, hdrop, Option.bind_some, htake, untilLast?_concat]

/-- The spaces in front of a described default do not matter, even where nothing else is there. -/
theorem announced_described (h : Unannounced cs) (hv : '\n' ∉ v) :
    announced ((cs ++ ' ' :: (announcement ++ (v ++ [']']))).dropWhile (· == ' ')) = some v := by
  rw [List.dropWhile_append]
  split_ifs
  · have hfirst : (' ' :: (announcement ++ (v ++ [']']))).dropWhile (· == ' ') =
        announcement ++ (v ++ [']']) := rfl
    rw [hfirst, announced_announcement hv]
  · rw [announced_append (h.within (List.dropWhile_suffix _).isInfix), announced_announcement hv]

end Coercion

end Synopsis
