import ConcurrentTcp.Common.FsPath

/-!
Prefixes of rendered paths.

A path below a directory has the directory's components as a prefix. Comparing
the rendered strings instead also accepts a sibling whose name continues the
directory's name. `slashed_prefix_cases` separates the two.
-/

namespace ConcurrentTcp

/-- The last of `ms` is continued by the component of `ns` at its place, and the
components before it agree. -/
def Extends (ms ns : List Str) : Prop :=
  ∃ front last suffix, ms = front ++ [last] ∧ suffix ≠ [] ∧ front ++ [last ++ suffix] <+: ns

/-- A name that continues another is not a component below it. -/
theorem Extends.not_isPrefix {ms ns : List Str} (h : Extends ms ns) : ¬ ms <+: ns := by
  obtain ⟨front, last, suffix, rfl, hsuffix, hns⟩ := h
  intro hms
  have hboth : front ++ [last] <+: front ++ [last ++ suffix] :=
    List.prefix_of_prefix_length_le hms hns (by simp)
  have heq := hboth.eq_of_length (by simp)
  simp [hsuffix] at heq

theorem Extends.cons {ms ns : List Str} (m : Str) (h : Extends ms ns) :
    Extends (m :: ms) (m :: ns) := by
  obtain ⟨front, last, suffix, rfl, hsuffix, hns⟩ := h
  exact ⟨m :: front, last, suffix, rfl, hsuffix, List.cons_prefix_cons.mpr ⟨rfl, hns⟩⟩

theorem slashed_isPrefix {ms ns : List Str} (h : ms <+: ns) : slashed ms <+: slashed ns := by
  obtain ⟨more, rfl⟩ := h
  rw [slashed_append]
  exact List.prefix_append ..

/-- The rendered sibling begins with the rendered directory. -/
theorem Extends.slashed_isPrefix {ms ns : List Str} (h : Extends ms ns) :
    ∃ suffix, suffix ≠ [] ∧ slashed ms ++ suffix <+: slashed ns := by
  obtain ⟨front, last, suffix, rfl, hsuffix, hns⟩ := h
  have hrendered := ConcurrentTcp.slashed_isPrefix hns
  exact ⟨suffix, hsuffix, by simpa [slashed_append] using hrendered⟩

/-- Behind a name comes a separator or nothing. -/
theorem head_eq_slash {ns : List Str} {tail rest : Str} {b : UInt8}
    (htail : tail = [] ∨ tail = [slash]) (h : b :: rest <+: slashed ns ++ tail) : b = slash := by
  cases ns with
  | nil =>
      rw [slashed_nil, List.nil_append] at h
      rcases htail with rfl | rfl
      · exact absurd (List.prefix_nil.mp h) (List.cons_ne_nil _ _)
      · exact (List.cons_prefix_cons.mp h).1
  | cons n ns =>
      rw [slashed_cons, List.cons_append, List.cons_append] at h
      exact (List.cons_prefix_cons.mp h).1

/-- A rendered path begins with a rendered directory only if it lies below it, or
below a sibling that continues its name; the induction compares name by name. -/
theorem slashed_prefix_cases {ms ns : List Str} {tail : Str} (hms : ∀ m ∈ ms, Named m)
    (hns : ∀ n ∈ ns, Named n) (htail : tail = [] ∨ tail = [slash])
    (h : slashed ms <+: slashed ns ++ tail) : ms <+: ns ∨ Extends ms ns := by
  induction ms generalizing ns with
  | nil => exact .inl List.nil_prefix
  | cons m ms ih =>
      obtain ⟨hm, hms'⟩ := List.forall_mem_cons.mp hms
      cases ns with
      | nil =>
          exfalso
          have hlen := h.length_le
          have hpos := List.length_pos_of_ne_nil hm.1
          rcases htail with rfl | rfl
          · simp at hlen
          · simp only [slashed_cons, slashed_nil, List.length_append, List.length_cons,
              List.length_nil] at hlen
            omega
      | cons n ns =>
          obtain ⟨hn, hns'⟩ := List.forall_mem_cons.mp hns
          simp only [slashed_cons, List.cons_append, List.append_assoc] at h
          obtain ⟨-, hrest⟩ := List.cons_prefix_cons.mp h
          by_cases hmn : m = n
          · subst hmn
            rcases ih hms' hns' ((List.prefix_append_right_inj m).mp hrest) with below | beside
            · exact .inl (List.cons_prefix_cons.mpr ⟨rfl, below⟩)
            · exact .inr (beside.cons m)
          rcases List.prefix_or_prefix_of_prefix ((List.prefix_append m (slashed ms)).trans hrest)
            (List.prefix_append n (slashed ns ++ tail)) with ⟨suffix, rfl⟩ | ⟨suffix, rfl⟩
          · have hsuffix : suffix ≠ [] := fun hnil => hmn (by rw [hnil, List.append_nil])
            right
            cases ms with
            | nil => exact ⟨[], m, suffix, rfl, hsuffix, by simp⟩
            | cons m' ms =>
                exfalso
                rw [List.append_assoc] at hrest
                have hnext := (List.prefix_append_right_inj m).mp hrest
                obtain ⟨b, rest, rfl⟩ := List.exists_cons_of_ne_nil hsuffix
                rw [slashed_cons, List.cons_append, List.cons_append] at hnext
                obtain ⟨rfl, -⟩ := List.cons_prefix_cons.mp hnext
                exact hn.2.1 (List.mem_append_right _ List.mem_cons_self)
          · exfalso
            have hsuffix : suffix ≠ [] := fun hnil => hmn (by rw [hnil, List.append_nil])
            rw [List.append_assoc] at hrest
            have hnext := (List.prefix_append_right_inj n).mp hrest
            obtain ⟨b, rest, rfl⟩ := List.exists_cons_of_ne_nil hsuffix
            rw [List.cons_append] at hnext
            obtain rfl := head_eq_slash htail hnext
            exact hm.2.1 (List.mem_append_right _ List.mem_cons_self)

/-! ### Canonical paths -/

namespace FsPath

/-- `p` is `d` or lies below it, by components. -/
def Below (d p : FsPath) : Prop := d.names <+: p.names

instance (d p : FsPath) : Decidable (Below d p) := by
  unfold Below; infer_instance

/-- `p` lies at or below a sibling of `d` whose name continues the name of `d`. -/
def BesideWithin (d p : FsPath) : Prop := d.finalSlash = false ∧ Extends d.names p.names

/-- `p` is `d` or lies below it, with the final separator of `d` if it has one. -/
def Inside (d p : FsPath) : Prop :=
  Below d p ∧ (d.finalSlash = true → p.names = d.names → p.finalSlash = true)

theorem BesideWithin.not_below {d p : FsPath} (h : BesideWithin d p) : ¬ Below d p :=
  h.2.not_isPrefix

theorem string_of_ne_nil {p : FsPath} (h : p.names ≠ []) :
    p.string = slashed p.names ++ (if p.finalSlash then [slash] else []) :=
  if_neg h

theorem tail_cases (p : FsPath) :
    (if p.finalSlash then [slash] else [] : Str) = [] ∨
      (if p.finalSlash then [slash] else [] : Str) = [slash] := by
  cases p.finalSlash
  · exact .inl rfl
  · exact .inr rfl

/-- The string of a path begins with the string of a directory only for paths
below the directory and beside it. -/
theorem below_or_beside_of_string {d p : FsPath} (h : d.string <+: p.string) :
    Below d p ∨ BesideWithin d p := by
  by_cases hd : d.names = []
  · exact .inl (by rw [Below, hd]; exact List.nil_prefix)
  have hdstring := string_of_ne_nil hd
  have hp : p.names ≠ [] := by
    intro hp
    have hlen := h.length_le
    have hroot : p.string = [slash] := if_pos hp
    obtain ⟨m, ms, hm⟩ := List.exists_cons_of_ne_nil hd
    have hpos := List.length_pos_of_ne_nil (d.named m (hm ▸ List.mem_cons_self)).1
    rw [hroot, hdstring, hm] at hlen
    simp only [slashed_cons, List.length_append, List.length_cons, List.length_nil] at hlen
    omega
  rw [hdstring, string_of_ne_nil hp] at h
  have hfront := (List.prefix_append _ _).trans h
  rcases slashed_prefix_cases d.named p.named p.tail_cases hfront with below | beside
  · exact .inl below
  · right
    refine ⟨?_, beside⟩
    by_contra hfinal
    -- The separator behind the directory would have to continue its name.
    rw [if_pos (by simpa using hfinal)] at h
    obtain ⟨front, last, suffix, hlast, hsuffix, more, hmore⟩ := beside
    obtain ⟨b, rest, rfl⟩ := List.exists_cons_of_ne_nil hsuffix
    rw [hlast, ← hmore] at h
    simp only [slashed_append, slashed_cons, slashed_nil, List.append_assoc, List.cons_append,
      List.append_nil, List.prefix_append_right_inj, List.cons_prefix_cons, true_and,
      List.nil_append] at h
    have hb : slash = b := h.1
    have hname : last ++ b :: rest ∈ p.names := hmore ▸ by simp
    exact (p.named _ hname).2.1 (hb ▸ List.mem_append_right _ List.mem_cons_self)

theorem string_prefix_of_beside {d p : FsPath} (h : BesideWithin d p) : d.string <+: p.string := by
  obtain ⟨hfinal, beside⟩ := h
  obtain ⟨suffix, hsuffix, hrendered⟩ := beside.slashed_isPrefix
  have hd : d.names ≠ [] := by
    obtain ⟨front, last, suffix, hlast, -⟩ := beside
    simp [hlast]
  have hp : p.names ≠ [] := by
    obtain ⟨front, last, suffix, -, -, hns⟩ := beside
    rintro hnil
    rw [hnil] at hns
    simpa using List.prefix_nil.mp hns
  rw [string_of_ne_nil hd, string_of_ne_nil hp, hfinal, if_neg (by decide), List.append_nil]
  exact ((List.prefix_append _ _).trans hrendered).trans (List.prefix_append _ _)

theorem string_prefix_of_inside {d p : FsPath} (h : Inside d p) : d.string <+: p.string := by
  obtain ⟨below, hfinal⟩ := h
  by_cases hd : d.names = []
  · have hroot : d.string = [slash] := if_pos hd
    rw [hroot]
    by_cases hp : p.names = []
    · have hsame : [slash] = p.string := (if_pos hp).symm
      exact hsame ▸ List.prefix_rfl
    · obtain ⟨n, ns, hn⟩ := List.exists_cons_of_ne_nil hp
      rw [string_of_ne_nil hp, hn]
      exact ⟨_, rfl⟩
  have hp : p.names ≠ [] := fun hnil => hd (List.prefix_nil.mp (hnil ▸ below))
  rw [string_of_ne_nil hd, string_of_ne_nil hp]
  by_cases hslash : d.finalSlash = true
  · rw [if_pos hslash]
    obtain ⟨more, hmore⟩ := below
    cases more with
    | nil =>
        -- The directory itself: both end in the separator.
        rw [List.append_nil] at hmore
        rw [if_pos (hfinal hslash hmore.symm)]
        exact hmore ▸ List.prefix_rfl
    | cons n ns =>
        rw [← hmore, slashed_append, slashed_cons, List.append_assoc]
        exact (List.prefix_append_right_inj _).mpr
          (List.cons_prefix_cons.mpr ⟨rfl, List.nil_prefix⟩)
  · rw [if_neg hslash, List.append_nil]
    exact (slashed_isPrefix below).trans (List.prefix_append _ _)

/-- The strings are compared, and not the components: what lies beside the directory passes
too. -/
theorem string_isPrefix_iff {d p : FsPath} :
    d.string <+: p.string ↔ Inside d p ∨ BesideWithin d p := by
  constructor
  · intro h
    refine (below_or_beside_of_string h).imp_left fun below => ⟨below, fun hslash hnames => ?_⟩
    by_contra hnone
    have hd : d.names ≠ [] := d.final hslash
    have hlen := h.length_le
    rw [string_of_ne_nil hd, string_of_ne_nil (hnames ▸ hd), if_pos hslash, if_neg hnone, hnames,
      List.length_append, List.length_append, List.length_nil, List.length_singleton] at hlen
    omega
  · rintro (inside | beside)
    · exact string_prefix_of_inside inside
    · exact string_prefix_of_beside beside

end FsPath

end ConcurrentTcp
