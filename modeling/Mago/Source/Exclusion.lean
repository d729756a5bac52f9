import Mago.Source.Path

/-!
# Exclusions

The configuration's excludes become a set of exclusions: a path prefix, or a glob pattern when
the exclude has a wildcard. `is_excluded` walks that set with a `for` loop whose body is
`return match ...`: the arms that match return `true`, and the fallback arm is `continue`,
which moves on to the next exclusion before anything is returned. The result is therefore
whether any exclusion matches, whatever order the hash set yields its elements in.

Glob matching is the `glob_match` crate's, and is a parameter here.
-/

namespace Mago

/-- `Exclusion`. -/
inductive Exclusion where
  | path (path : PathBuf)
  | pattern (pattern : String)
  deriving Repr, DecidableEq

/-- `create_excludes_set`: an exclude with a wildcard is a pattern; any other is a path,
joined to the root when it is relative. The list is the set's iteration order before
duplicates are dropped. -/
def createExcludesSet (excludes : List String) (root : PathBuf) : List Exclusion :=
  excludes.map fun exclude =>
    if exclude.contains '*' then .pattern exclude
    else
      let path := PathBuf.new exclude
      if path.isAbsolute then .path path else .path (root.join path)

section Matching

variable (globMatch : String → String → Bool)

/-- Whether one exclusion matches a path. -/
def Exclusion.Matches (candidate : PathBuf) : Exclusion → Bool
  | .path base => candidate.startsWith base
  | .pattern glob => globMatch glob candidate.toStringLossy

/-- `is_excluded`, over the exclusion set in one iteration order. -/
def isExcluded (path : PathBuf) : List Exclusion → Bool
  | [] => false
  | exclusion :: rest =>
      match exclusion with
      | .path base => if path.startsWith base then true else isExcluded path rest
      | .pattern glob => if globMatch glob path.toStringLossy then true else isExcluded path rest

/-- One turn of the loop: a matching exclusion returns `true`, any other continues. -/
theorem isExcluded_cons (path : PathBuf) (exclusion : Exclusion) (rest : List Exclusion) :
    isExcluded globMatch path (exclusion :: rest) =
      (exclusion.Matches globMatch path || isExcluded globMatch path rest) := by
  cases exclusion <;> simp only [isExcluded, Exclusion.Matches] <;> split <;> simp_all

/-- The loop computes whether any exclusion matches. -/
theorem isExcluded_eq_any (path : PathBuf) (exclusions : List Exclusion) :
    isExcluded globMatch path exclusions = exclusions.any (·.Matches globMatch path) := by
  induction exclusions with
  | nil => rfl
  | cons exclusion rest ih => rw [isExcluded_cons, ih, List.any_cons]

/-- `is_excluded` is true exactly when some exclusion of the set matches, in every iteration
order: a path exclusion the path starts with, or a pattern the path's text matches. -/
theorem isExcluded_iff_exists_match (path : PathBuf) (exclusions : List Exclusion) :
    isExcluded globMatch path exclusions = true ↔
      (∃ base, .path base ∈ exclusions ∧ path.startsWith base) ∨
        ∃ glob, .pattern glob ∈ exclusions ∧ globMatch glob path.toStringLossy := by
  rw [isExcluded_eq_any, List.any_eq_true]
  constructor
  · rintro ⟨exclusion, member, matching⟩
    cases exclusion with
    | path base => exact .inl ⟨base, member, matching⟩
    | pattern glob => exact .inr ⟨glob, member, matching⟩
  · rintro (⟨base, member, matching⟩ | ⟨glob, member, matching⟩)
    · exact ⟨_, member, matching⟩
    · exact ⟨_, member, matching⟩

/-- The result does not depend on the order the set is iterated in. -/
theorem isExcluded_perm (path : PathBuf) {exclusions reordered : List Exclusion}
    (permuted : exclusions.Perm reordered) :
    isExcluded globMatch path exclusions = isExcluded globMatch path reordered := by
  rw [isExcluded_eq_any, isExcluded_eq_any, Bool.eq_iff_iff, List.any_eq_true, List.any_eq_true]
  exact exists_congr fun exclusion => and_congr_left fun _ => permuted.mem_iff

end Matching

/-- Visiting a pattern that does not match before a path exclusion that does, or after it,
gives the same answer. -/
theorem isExcluded_perm_swap :
    [Exclusion.pattern "*.inc", .path (PathBuf.new "vendor")].Perm
        [.path (PathBuf.new "vendor"), .pattern "*.inc"] ∧
      isExcluded (fun _ _ => false) (PathBuf.new "vendor/a.php")
          [.pattern "*.inc", .path (PathBuf.new "vendor")] =
        isExcluded (fun _ _ => false) (PathBuf.new "vendor/a.php")
          [.path (PathBuf.new "vendor"), .pattern "*.inc"] :=
  ⟨List.Perm.swap _ _ _, isExcluded_perm _ _ (List.Perm.swap _ _ _)⟩

end Mago
