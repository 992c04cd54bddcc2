import Mathlib.Data.List.Basic
import RemoteImports.Discovery
import RemoteImports.Proofs.Outcome

/-!
# Patterns without an anchor

A pattern that starts with a star or a slash cannot tell where the path below a start begins: if it
matches what is left of a path after a slash, it matches the whole path (`isMatch_of_after_slash`).
The first token of a pattern shows of which kind it is, and reading the rest of the pattern does not
change that (`isUnanchored_of_parse`).
-/

namespace RemoteImports

/-- Tokens that stand for any bytes, for any directories, or for a slash. -/
inductive GlobToken.IsUnanchored : GlobToken → Prop
  | star : IsUnanchored .star
  | anyPrefix : IsUnanchored .anyPrefix
  | anySuffix : IsUnanchored .anySuffix
  | anyBetween : IsUnanchored .anyBetween
  | slash : IsUnanchored (.literal '/')

namespace Glob

open OsString (slash)

/-- The first token of a pattern stands for any bytes, for any directories, or for a slash. -/
def IsUnanchored (tokens : List GlobToken) : Prop :=
  ∃ token, tokens.head? = some token ∧ token.IsUnanchored

/-! ## Matching -/

section Matching

variable {next : List UInt8 → Bool} {allowed : UInt8 → Bool} {s before : List UInt8}
  {tokens : List GlobToken} {path below : OsString}

theorem afterSome_append (hbefore : ∀ b ∈ before, allowed b) (h : afterSome allowed next s) :
    afterSome allowed next (before ++ s) := by
  induction before with
  | nil => exact h
  | cons b before ih =>
    obtain ⟨hb, hbefore⟩ := List.forall_mem_cons.1 hbefore
    simp [afterSome, hb, ih hbefore]

theorem afterSlash_append (before : List UInt8) (h : afterSlash next s) :
    afterSlash next (before ++ s) := by
  induction before with
  | nil => exact h
  | cons b before ih => simp [afterSlash, ih]

theorem onSlash_of_head? (hs : s.head? ≠ some slash) : onSlash next s = false := by
  cases s with
  | nil => rfl
  | cons b s =>
    have hb : b ≠ slash := fun he => hs (congrArg some he)
    simp [onSlash, hb]

theorem startsWith_slash_of_head? (hs : s.head? ≠ some slash) :
    startsWith next (String.utf8EncodeChar '/') s = false := by
  have hslash : String.utf8EncodeChar '/' = [slash] := by decide
  cases s with
  | nil => rfl
  | cons b s =>
    have hb : slash ≠ b := fun he => hs (congrArg some he.symm)
    simp [hslash, startsWith, hb]

/-- **A match of what follows a slash** is a match of the whole. -/
theorem matchTokens_append (htokens : IsUnanchored tokens) (hs : s.head? ≠ some slash)
    (h : matchTokens false List.isEmpty tokens s) :
    matchTokens false List.isEmpty tokens (before ++ slash :: s) := by
  obtain ⟨token, hhead, htoken⟩ := htokens
  obtain ⟨rest, rfl⟩ := List.head?_eq_some_iff.1 hhead
  rw [matchTokens] at h ⊢
  cases htoken with
  | star =>
    rw [matchToken] at h ⊢
    rw [List.append_cons]
    exact afterSome_append (by simp) h
  | anyPrefix =>
    rw [matchToken] at h ⊢
    refine Bool.or_eq_true_iff.2 (.inr (afterSlash_append before ?_))
    rw [afterSlash, beq_self_eq_true, Bool.true_and]
    exact h
  | anySuffix | anyBetween =>
    rw [matchToken, onSlash_of_head? hs] at h
    cases h
  | slash =>
    rw [matchToken, startsWith_slash_of_head? hs] at h
    cases h

theorem isMatch_of_ne {components : Bool} (h : tokens ≠ [.anyPrefix]) (path : OsString) :
    isMatch components tokens path =
      matchTokens components List.isEmpty tokens path.bytes := by
  unfold isMatch
  split
  · exact absurd rfl h
  · rfl

/-- **A pattern without an anchor** that matches what follows a slash matches the whole path. -/
theorem isMatch_of_after_slash (htokens : IsUnanchored tokens)
    (hpath : path.bytes = before ++ slash :: below.bytes) (hbelow : below.bytes.head? ≠ some slash)
    (h : isMatch false tokens below) : isMatch false tokens path := by
  by_cases hany : tokens = [.anyPrefix]
  · rw [hany, isMatch]
  · rw [isMatch_of_ne hany] at h ⊢
    rw [hpath]
    exact matchTokens_append htokens hbelow h

end Matching

/-! ## Reading -/

theorem IsUnanchored.append {tokens : List GlobToken} (h : IsUnanchored tokens)
    (more : List GlobToken) : IsUnanchored (tokens ++ more) := by
  obtain ⟨token, hhead, htoken⟩ := h
  exact ⟨token, by simp [List.head?_append, hhead], htoken⟩

theorem IsUnanchored.of_append {tokens more : List GlobToken} (h : IsUnanchored (tokens ++ more))
    (hne : tokens ≠ []) : IsUnanchored tokens := by
  obtain ⟨first, rest, rfl⟩ := List.exists_cons_of_ne_nil hne
  exact h

theorem isUnanchored_cons {token : GlobToken} (h : token.IsUnanchored) (rest : List GlobToken) :
    IsUnanchored (token :: rest) :=
  ⟨token, rfl, h⟩

namespace Draft

variable {d d' : Draft} {token : GlobToken}

/-- What is read so far is the start of a pattern without an anchor. Inside of groups, the first
token stands in the alternative around the outermost one. -/
inductive IsUnanchored (d : Draft) : Prop
  | outside (houter : d.outer = []) (h : Glob.IsUnanchored d.tokens.reverse)
  | inside {group : List (List GlobToken) × List GlobToken} (houter : d.outer.getLast? = some group)
      (h : Glob.IsUnanchored group.2.reverse)

/-- Only the tokens count. -/
theorem IsUnanchored.of_eq (h : d.IsUnanchored) (houter : d'.outer = d.outer)
    (htokens : d'.tokens = d.tokens) : d'.IsUnanchored := by
  cases h with
  | outside hnil h => exact .outside (houter.trans hnil) (htokens ▸ h)
  | inside hlast h => exact .inside (houter ▸ hlast) h

theorem IsUnanchored.push (h : d.IsUnanchored) (token : GlobToken) (last : Char) :
    (d.push token last).IsUnanchored := by
  cases h with
  | outside houter h =>
    refine .outside houter ?_
    rw [Draft.push, List.reverse_cons]
    exact h.append [token]
  | inside houter h => exact .inside houter h

theorem IsUnanchored.openGroup (h : d.IsUnanchored) : d.openGroup.IsUnanchored := by
  cases h with
  | outside houter h => exact .inside (by rw [Draft.openGroup, houter]; rfl) h
  | inside houter h =>
    refine .inside ?_ h
    rw [Draft.openGroup, List.getLast?_cons, houter]
    rfl

theorem IsUnanchored.comma (h : d.IsUnanchored) : d.comma.IsUnanchored := by
  rw [Draft.comma]
  split
  · exact h.push (.literal ',') ','
  · rename_i hne
    cases h with
    | outside houter h => exact absurd houter hne
    | inside houter h => exact .inside houter h

theorem IsUnanchored.closeGroup (h : d.IsUnanchored) (hclose : d.closeGroup = .ok d') :
    d'.IsUnanchored := by
  rw [Draft.closeGroup] at hclose
  split at hclose
  · cases hclose
  rename_i branches tokens outer houter
  cases hclose
  cases h with
  | outside hnil h => cases houter.symm.trans hnil
  | @inside group hlast h =>
    rw [houter, List.getLast?_cons] at hlast
    cases hrest : outer.getLast? with
    | some group' =>
      rw [hrest] at hlast
      cases hlast
      exact .inside hrest h
    | none =>
      -- the last group is closed, and its tokens are those outside of all groups
      rw [hrest] at hlast
      cases hlast
      refine .outside (List.getLast?_eq_none_iff.1 hrest) ?_
      rw [List.reverse_cons]
      exact h.append _

/-- The slash whose place a double star takes may be the first token. -/
theorem isUnanchored_reverse_replace {tokens : List GlobToken} (htoken : token.IsUnanchored)
    (h : Glob.IsUnanchored tokens.reverse) :
    Glob.IsUnanchored (token :: tokens.drop 1).reverse := by
  match tokens with
  | [] | [_] => exact isUnanchored_cons htoken []
  | last :: before :: rest =>
    have hrest : Glob.IsUnanchored (before :: rest).reverse := by
      rw [List.reverse_cons] at h
      exact h.of_append (by simp)
    rw [List.drop_one, List.tail_cons, List.reverse_cons]
    exact hrest.append [token]

theorem IsUnanchored.replaceSlash (h : d.IsUnanchored) (htoken : token.IsUnanchored)
    (last : Char) : (d.replaceSlash token last).IsUnanchored := by
  rw [Draft.replaceSlash]
  split
  · exact h.of_eq rfl rfl
  · exact h.of_eq rfl rfl
  · cases h with
    | inside houter h => exact .inside houter h
    | outside houter h => exact .outside houter (isUnanchored_reverse_replace htoken h)

theorem IsUnanchored.doubleStar (h : d.IsUnanchored) (rest : List Char) :
    (d.doubleStar rest).1.IsUnanchored := by
  have htwo : d.twoStars.IsUnanchored := (h.push .star '*').push .star '*'
  unfold Draft.doubleStar
  split
  · split
    · exact h.push .anyPrefix '*'
    · exact h.push .anyPrefix '/'
    · exact htwo
  split
  · split
    · exact h.replaceSlash .anySuffix '*'
    · exact h.replaceSlash .anyBetween '/'
    · split
      · exact h.replaceSlash .anySuffix '*'
      · exact htwo
  · exact htwo

theorem IsUnanchored.finish {tokens : List GlobToken} (h : d.IsUnanchored)
    (hfinish : d.finish = .ok tokens) : Glob.IsUnanchored tokens := by
  rw [Draft.finish] at hfinish
  split at hfinish
  · rename_i hnil
    cases hfinish
    cases h with
    | outside houter h => exact h
    | inside houter h => simp [hnil] at houter
  · cases hfinish

end Draft

/-- **The start of a pattern stays** while the rest is read. -/
theorem Draft.IsUnanchored.parseWithin {d : Draft} {allowOpenClass : Bool} {bound : Nat}
    {text : List Char} {tokens : List GlobToken} (hd : d.IsUnanchored)
    (h : Glob.parseWithin allowOpenClass bound d text = .ok tokens) :
    Glob.IsUnanchored tokens := by
  induction bound generalizing d text with
  | zero => exact hd.finish h
  | succ bound ih =>
    unfold Glob.parseWithin at h
    split at h
    · exact hd.finish h
    · exact ih (hd.push .any '?') h
    · exact ih (hd.doubleStar _) h
    · exact ih (hd.push .star '*') h
    · exact ih hd.openGroup h
    · obtain ⟨d', hclose, h⟩ := bind_eq_ok_iff.1 h
      exact ih (hd.closeGroup hclose) h
    · exact ih hd.comma h
    · cases h
    · exact ih (hd.push _ _) h
    · split at h
      · exact ih (hd.push _ _) h
      · obtain ⟨found, -, h⟩ := bind_eq_ok_iff.1 h
        split at h
        · exact ih (hd.push _ _) h
        · split at h
          · have hopen : ({ d.literal '[' with plainBrackets := true } : Draft).IsUnanchored :=
              (hd.push (.literal '[') '[').of_eq rfl rfl
            exact ih hopen h
          · cases h
    · exact ih (hd.push _ _) h

/-! ## The first token -/

namespace Draft

/-- Nothing is read so far. -/
def start : Draft := ⟨none, false, [], [], []⟩

theorem isUnanchored_push_start {token : GlobToken} (h : token.IsUnanchored) (last : Char) :
    (start.push token last).IsUnanchored :=
  .outside rfl (isUnanchored_cons h [])

theorem isUnanchored_doubleStar_start (rest : List Char) :
    (start.doubleStar rest).1.IsUnanchored := by
  unfold doubleStar
  rw [if_pos (show start.tokens = [] from rfl)]
  split
  · exact isUnanchored_push_start .anyPrefix '*'
  · exact isUnanchored_push_start .anyPrefix '/'
  · exact (isUnanchored_push_start .star '*').push .star '*'

end Draft

/-- **A pattern that starts with a star or a slash** has no anchor. -/
theorem isUnanchored_of_parse {allowOpenClass : Bool} {pattern : String} {tokens : List GlobToken}
    (hfirst : pattern.toList.head? = some '*' ∨ pattern.toList.head? = some '/')
    (h : parse allowOpenClass pattern = .ok tokens) : IsUnanchored tokens := by
  rw [parse] at h
  rcases hfirst with hfirst | hfirst
  · obtain ⟨rest, hrest⟩ := List.head?_eq_some_iff.1 hfirst
    rw [hrest] at h
    by_cases hstar : rest.head? = some '*'
    · obtain ⟨rest, rfl⟩ := List.head?_eq_some_iff.1 hstar
      exact (Draft.isUnanchored_doubleStar_start rest).parseWithin h
    · rw [parseWithin] at h
      · exact (Draft.isUnanchored_push_start .star '*').parseWithin h
      · rintro rest' rfl
        exact hstar rfl
  · obtain ⟨rest, hrest⟩ := List.head?_eq_some_iff.1 hfirst
    rw [hrest] at h
    exact (Draft.isUnanchored_push_start .slash '/').parseWithin h

end Glob

end RemoteImports
