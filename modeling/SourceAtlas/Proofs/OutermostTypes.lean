import SourceAtlas.Proofs.TypePlaces

/-!
# Outermost types

Whether a matched declaration is reported depends on the nearest reported one
before it alone.  The loop that keeps declarations always compares with the one
kept last, and since declarations come in the order of their starts, that one is
the nearest when the whole list is looked at afterwards.
-/

namespace SourceAtlas.CSharp.TypeDeclaration

open Text

variable {masked : List Char}

theorem mem_preceding {types : List TypeDeclaration} {offset : Nat}
    {declaration : TypeDeclaration} :
    declaration ∈ preceding types offset ↔
      declaration ∈ types ∧ declaration.start < offset := by
  simp [preceding]

theorem preceding_append (first second : List TypeDeclaration) (offset : Nat) :
    preceding (first ++ second) offset = preceding second offset ++ preceding first offset := by
  simp [preceding]

/-- Of the declarations before an offset, the nearest one starts last. -/
theorem exists_nearest {types : List TypeDeclaration}
    (hsorted : types.Pairwise (fun earlier later => earlier.start < later.start))
    {declaration : TypeDeclaration} (hmem : declaration ∈ types) {offset : Nat}
    (hstart : declaration.start < offset) :
    ∃ nearest ∈ types, nearest.start < offset ∧
      (preceding types offset).head? = some nearest ∧
      (declaration = nearest ∨ declaration.start < nearest.start) := by
  have hpreceding := mem_preceding.mpr ⟨hmem, hstart⟩
  have hordered : (preceding types offset).Pairwise
      (fun later earlier => earlier.start < later.start) := by
    unfold preceding
    rw [List.pairwise_reverse]
    exact hsorted.filter _
  cases hlist : preceding types offset with
  | nil => simp [hlist] at hpreceding
  | cons nearest rest =>
      have hnearest : nearest ∈ preceding types offset := by simp [hlist]
      obtain ⟨hnearestMem, hnearestStart⟩ := mem_preceding.mp hnearest
      refine ⟨nearest, hnearestMem, hnearestStart, rfl, ?_⟩
      rw [hlist] at hpreceding hordered
      rcases List.mem_cons.mp hpreceding with heq | hrest
      · exact Or.inl heq
      · exact Or.inr ((List.pairwise_cons.mp hordered).1 declaration hrest)

/-- An offset lies inside a type if the nearest one before it encloses it. -/
theorem insideAny_eq (types : List TypeDeclaration) (masked : List Char) (offset : Nat) :
    insideAny types masked offset =
      (preceding types offset).head?.any (·.enclosing masked offset) := by
  unfold insideAny
  cases preceding types offset <;> rfl

/-- The declarations kept from a list after a last one has been kept. -/
def keptAfter (masked : List Char) (last : Option TypeDeclaration) :
    List TypeDeclaration → List TypeDeclaration
  | [] => []
  | declaration :: rest =>
      if last.any (·.nests masked declaration.start) then keptAfter masked last rest
      else declaration :: keptAfter masked (some declaration) rest

theorem keepOutermost_eq (masked : List Char) (kept rest : List TypeDeclaration) :
    keepOutermost masked kept rest = kept.reverse ++ keptAfter masked kept.head? rest := by
  induction rest generalizing kept with
  | nil => simp [keepOutermost, keptAfter]
  | cons declaration rest ih =>
      cases kept with
      | nil =>
          simp only [keepOutermost, keptAfter, List.head?_nil, Option.any_none,
            Bool.false_eq_true, if_false]
          rw [ih]
          rfl
      | cons previous kept =>
          by_cases hnests : previous.nests masked declaration.start = true
          · simp only [keepOutermost, keptAfter, List.head?_cons, Option.any_some, hnests, if_true]
            exact ih _
          · simp only [keepOutermost, keptAfter, List.head?_cons, Option.any_some, hnests,
              Bool.false_eq_true, if_false]
            rw [ih]
            simp

theorem topLevel_eq (masked : List Char) :
    topLevel masked = keptAfter masked none (candidates masked) := by
  rw [topLevel, keepOutermost_eq]
  rfl

theorem keptAfter_sublist (masked : List Char) (last : Option TypeDeclaration)
    (rest : List TypeDeclaration) : (keptAfter masked last rest).Sublist rest := by
  induction rest generalizing last with
  | nil => exact List.Sublist.refl _
  | cons declaration rest ih =>
      unfold keptAfter
      split
      · exact (ih _).cons _
      · exact (ih _).cons_cons _

theorem topLevel_sublist (masked : List Char) :
    (topLevel masked).Sublist (candidates masked) := by
  rw [topLevel_eq]
  exact keptAfter_sublist _ _ _

theorem preceding_eq_nil {types : List TypeDeclaration} {offset : Nat}
    (hlate : ∀ declaration ∈ types, offset ≤ declaration.start) :
    preceding types offset = [] := by
  rw [List.eq_nil_iff_forall_not_mem]
  intro declaration hmem
  obtain ⟨htypes, hstart⟩ := mem_preceding.mp hmem
  have hle := hlate declaration htypes
  omega

theorem preceding_toList {last : Option TypeDeclaration} {offset : Nat}
    (hlast : ∀ declaration ∈ last, declaration.start < offset) :
    preceding last.toList offset = last.toList := by
  cases last with
  | none => rfl
  | some declaration =>
      have hstart : declaration.start < offset := hlast declaration rfl
      simp [preceding, hstart]

/-- With the declarations in the order of their starts, one is kept exactly if it does
not belong to the nearest kept one before it. -/
theorem mem_keptAfter_iff {last : Option TypeDeclaration} {rest : List TypeDeclaration}
    (hsorted : (last.toList ++ rest).Pairwise
      (fun earlier later => earlier.start < later.start))
    {declaration : TypeDeclaration} (hmem : declaration ∈ rest) :
    declaration ∈ keptAfter masked last rest ↔
      ∀ nearest ∈ (preceding (last.toList ++ keptAfter masked last rest)
        declaration.start).head?, nearest.nests masked declaration.start = false := by
  induction rest generalizing last with
  | nil => simp at hmem
  | cons first rest ih =>
      obtain ⟨-, hrest, hlast⟩ := List.pairwise_append.mp hsorted
      obtain ⟨hlater, hrest⟩ := List.pairwise_cons.mp hrest
      have hlast : ∀ previous ∈ last, previous.start < first.start := fun previous hprevious =>
        hlast previous (Option.mem_toList.mpr hprevious) first List.mem_cons_self
      -- Nothing kept from `first` on starts before it, so `last` is the nearest.
      have hnearest : ∀ kept : List TypeDeclaration, kept.Sublist (first :: rest) →
          preceding (last.toList ++ kept) first.start = last.toList := by
        intro kept hkept
        rw [preceding_append, preceding_toList hlast, preceding_eq_nil, List.nil_append]
        intro other hother
        rcases List.mem_cons.mp (hkept.subset hother) with rfl | hother
        · exact Nat.le_refl _
        · exact Nat.le_of_lt (hlater other hother)
      have hhead : last.toList.head? = last := by cases last <;> rfl
      by_cases hnests : last.any (·.nests masked first.start) = true
      · have hkept : keptAfter masked last (first :: rest) = keptAfter masked last rest := by
          rw [keptAfter, if_pos hnests]
        rw [hkept]
        rcases List.mem_cons.mp hmem with rfl | hmem
        · rw [hnearest _ ((keptAfter_sublist _ _ _).cons _), hhead]
          constructor
          · intro hkeptMem
            have hlt := hlater _ ((keptAfter_sublist _ _ _).subset hkeptMem)
            omega
          · intro hapart
            cases last with
            | none => contradiction
            | some previous =>
                rw [Option.any_some, hapart previous rfl] at hnests
                contradiction
        · apply ih _ hmem
          exact hsorted.sublist ((List.Sublist.refl _).append (List.sublist_cons_self _ _))
      · have hkept : keptAfter masked last (first :: rest) =
            first :: keptAfter masked (some first) rest := by
          rw [keptAfter, if_neg hnests]
        rw [hkept]
        rcases List.mem_cons.mp hmem with rfl | hmem
        · rw [hnearest _ ((keptAfter_sublist _ _ _).cons_cons _), hhead]
          simp only [List.mem_cons_self, true_iff]
          rintro nearest rfl
          exact Bool.eq_false_iff.mpr hnests
        · have hstart := hlater declaration hmem
          have hne : declaration ≠ first := by
            rintro rfl
            omega
          have hfirst : preceding (first :: keptAfter masked (some first) rest)
              declaration.start ≠ [] :=
            List.ne_nil_of_mem (mem_preceding.mpr ⟨List.mem_cons_self, hstart⟩)
          have hsorted' : ((some first).toList ++ rest).Pairwise
              (fun earlier later => earlier.start < later.start) :=
            List.pairwise_cons.mpr ⟨hlater, hrest⟩
          have hhead : (preceding (last.toList ++ first :: keptAfter masked (some first) rest)
              declaration.start).head? =
              (preceding ((some first).toList ++ keptAfter masked (some first) rest)
                declaration.start).head? := by
            rw [preceding_append, List.head?_append_of_ne_nil _ hfirst]
            rfl
          rw [List.mem_cons, or_iff_right hne, hhead]
          exact ih hsorted' hmem

theorem pairwise_start_candidates (masked : List Char) :
    (candidates masked).Pairwise (fun earlier later => earlier.start < later.start) := by
  apply (pairwise_candidates masked).imp_of_mem
  intro earlier later hearlier _ hle
  have hlt := (standsIn_of_mem_candidates hearlier).start_lt
  omega

theorem headerStart_le_of_start_lt {earlier later : TypeDeclaration}
    (hearlier : earlier ∈ candidates masked) (hlater : later ∈ candidates masked)
    (hlt : earlier.start < later.start) : earlier.headerStart ≤ later.start := by
  have hordered := List.pairwise_iff_getElem.mp (pairwise_candidates masked)
  have hstands := standsIn_of_mem_candidates hlater
  obtain ⟨i, hi, rfl⟩ := List.mem_iff_getElem.mp hearlier
  obtain ⟨j, hj, rfl⟩ := List.mem_iff_getElem.mp hlater
  rcases Nat.lt_trichotomy i j with hij | rfl | hji
  · exact hordered i j hi hj hij
  · omega
  · have hle := hordered j i hj hi hji
    have hstart := hstands.start_lt
    omega

theorem pairwise_start_topLevel (masked : List Char) :
    (topLevel masked).Pairwise (fun earlier later => earlier.start < later.start) :=
  (pairwise_start_candidates masked).sublist (topLevel_sublist masked)

theorem mem_candidates_of_mem_topLevel {declaration : TypeDeclaration}
    (hmem : declaration ∈ topLevel masked) : declaration ∈ candidates masked :=
  (topLevel_sublist masked).subset hmem

theorem standsIn_of_mem_topLevel {declaration : TypeDeclaration}
    (hmem : declaration ∈ topLevel masked) : declaration.StandsIn masked :=
  standsIn_of_mem_candidates (mem_candidates_of_mem_topLevel hmem)

theorem mem_topLevel_iff {declaration : TypeDeclaration}
    (hmem : declaration ∈ candidates masked) :
    declaration ∈ topLevel masked ↔
      ∀ nearest ∈ (preceding (topLevel masked) declaration.start).head?,
        nearest.nests masked declaration.start = false := by
  have hsorted : ((none : Option TypeDeclaration).toList ++ candidates masked).Pairwise
      (fun earlier later => earlier.start < later.start) := pairwise_start_candidates masked
  rw [topLevel_eq]
  exact mem_keptAfter_iff hsorted hmem

end SourceAtlas.CSharp.TypeDeclaration
