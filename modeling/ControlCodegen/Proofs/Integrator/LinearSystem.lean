import ControlCodegen.Integrator.LinearSystem
import ControlCodegen.Proofs.C.Counting
import ControlCodegen.Proofs.C.Returns

/-!
# `Integrator.LinearSystem`: the linear solver stays within its arrays

* `IsRows` : the entries of a permutation are rows of the system.
* `LinearSystem.meets_solve`, `LinearSystem.meets_solveAgain` : both functions end well; the first leaves a permutation of
  rows, the second needs one and keeps it.

The rows of the right side are looked up in the permutation, so that the bounds of one function rest on what the other
has left in memory. A factorization that ends early leaves rows as well.
-/

namespace ControlCodegen.Integrator

open C C.IntExpr C.Stmt

set_option autoImplicit false

/-- The first `n` entries are rows of a system of that dimension. -/
def RowsBelow (dim n : Nat) (v : View) (ints : Block → Nat → Int) : Prop :=
  ∀ j < n, 0 ≤ ints v.block (v.first + j) ∧ ints v.block (v.first + j) < dim

/-- All entries of a permutation are rows. -/
abbrev IsRows (dim : Nat) (v : View) : (Block → Nat → Int) → Prop := RowsBelow dim dim v

namespace RowsBelow

variable {R : Type} {dim n : Nat} {v : View} {m : Memory R} {x : Int}

theorem zero {ints : Block → Nat → Int} : RowsBelow dim 0 v ints := fun j hj => absurd hj (Nat.not_lt_zero j)

theorem setInt (h : RowsBelow dim n v m.ints) (i : Nat) (h0 : 0 ≤ x) (hx : x < dim) :
    RowsBelow dim n v (m.setInt v.block (v.first + i) x).ints := by
  intro j hj
  unfold Memory.setInt
  dsimp only
  split_ifs
  · exact ⟨h0, hx⟩
  · exact h j hj

theorem snoc (h : RowsBelow dim n v m.ints) (h0 : 0 ≤ x) (hx : x < dim) :
    RowsBelow dim (n + 1) v (m.setInt v.block (v.first + n) x).ints := by
  intro j hj
  unfold Memory.setInt
  dsimp only
  split_ifs with hjn
  · exact ⟨h0, hx⟩
  · have hne : j ≠ n := fun h => hjn ⟨rfl, by rw [h]⟩
    exact h j (by omega)

end RowsBelow

namespace LinearSystem

variable {s : LinearSystem} {S : Scope} {K : List String} {ρ : Known}

theorem solveName_ne (s : LinearSystem) : s.solveName ≠ s.solveAgainName := by
  intro h
  change s.owner ++ "_solve_dim" ++ toString s.dim ++ "_system" =
    s.owner ++ "_solve_dim" ++ toString s.dim ++ "_system_reuse" at h
  exact absurd ((String.append_right_inj _).1 h) (by decide)

/-! ## Elimination and substitution -/

section

variable (ha : s.dim * s.dim ≤ S.length a)
include ha

theorem within_index {row col : IntExpr} {r c : Nat} (hrow : row.Counts ρ r) (hcol : col.Counts ρ c) (hr : r < s.dim)
    (hc : c < s.dim) : S.Within ρ a (s.index row col) :=
  ((hrow.mul (counts_lit s.dim)).add hcol).within (Nat.lt_of_lt_of_le (row_index_lt hr hc) ha)

/-- Row `i` is known while the rows below it are reduced. -/
theorem eliminate_inBounds (hb : s.dim ≤ S.length b) {n : Nat} (hi : (var "i").Counts ρ n) (hn : n < s.dim) :
    s.eliminate.InBounds S K ρ := by
  unfold eliminate
  refine inBounds_countUp (by simp) (hi.add (counts_lit 1)) (counts_lit s.dim) fun j ρj _ hj hcj hkj => ?_
  have hij := hkj.counts (by simp) hi
  refine inBounds_block_step ?_ fun ρ₁ h₁ => ?_
  · exact inBounds_assign_entry (within_index ha hcj hij hj hn) (within_index ha hij hij hn hn)
  have hi₁ := h₁.counts (by simp) hij
  have hj₁ := h₁.counts (by simp) hcj
  refine inBounds_block_step ?_ fun ρ₂ h₂ => ?_
  · refine inBounds_countUp (by simp) (hi₁.add (counts_lit 1)) (counts_lit s.dim) fun k ρk _ hk hck hkk => ?_
    have hik := hkk.counts (by simp) hi₁
    have hjk := hkk.counts (by simp) hj₁
    exact inBounds_assign_entry (within_index ha hjk hck hj hk)
      ⟨within_index ha hjk hik hj hn, within_index ha hik hck hn hk⟩
  have hi₂ := h₂.counts (by simp) hi₁
  have hj₂ := h₂.counts (by simp) hj₁
  exact inBounds_assign_entry (hj₂.within (by omega)) ⟨within_index ha hj₂ hi₂ hj hn, hi₂.within (by omega)⟩

theorem substitute_inBounds {right : Ref} (hright : s.dim ≤ S.length right) :
    (s.substitute right).InBounds S K ρ := by
  unfold substitute
  refine inBounds_countDown (by simp) fun i ρi hi hci hki => ?_
  refine inBounds_block_step ?_ fun ρ₁ h₁ => ?_
  · refine inBounds_countUp (by simp) (hci.add (counts_lit 1)) (counts_lit s.dim) fun j ρj _ hj hcj hkj => ?_
    have hij := hkj.counts (by simp) hci
    exact inBounds_assign_entry (hij.within (by omega)) ⟨within_index ha hij hcj hi hj, hcj.within (by omega)⟩
  have hi₁ := h₁.counts (by simp) hci
  exact inBounds_assign_entry (hi₁.within (by omega)) (within_index ha hi₁ hi₁ hi hi)

end

/-! ## Pivoting -/

section Pivoting

variable {R : Type} [Arithmetic R] {E : Fault → Prop} {ctx : Context R} {τ : State R} {w : View}
  {D : Answer R → Memory R → Prop}

/-- Rows stay rows when two entries of the permutation change places. -/
theorem exchangePerm_runs (hctx : ctx.size = S.size) (hw : S.arrays "rk_perm" = some w) (hdim : w.length = s.dim)
    (hs : Fits S (IsRows s.dim w) K ρ τ) {n q : Nat} (hi : (var "i").Counts ρ n) (hp : (var "p").Counts ρ q)
    (hn : n < s.dim) (hq : q < s.dim) :
    Runs E ctx (exchangePerm (var "i") (var "p")) τ (Fits S (IsRows s.dim w) K (ρ.forget ["k"])) D := by
  obtain ⟨h0, hx⟩ := hs.memory n hn
  unfold exchangePerm
  refine Runs.beside (hs.runs_setInt hctx "k" (hs.eval_elem hw hi (by omega))) fun τ₁ h₁ => ?_
  have hi₁ := counts_set_of_ne (n := "k") hi (by simp) (some (τ.memory.ints w.block (w.first + n)))
  have hp₁ := counts_set_of_ne (n := "k") hp (by simp) (some (τ.memory.ints w.block (w.first + n)))
  obtain ⟨h0', hx'⟩ := h₁.memory q hq
  refine Runs.beside (h₁.runs_setElem hctx hw hi₁ (by omega) (h₁.eval_elem hw hp₁ (by omega))
    (h₁.memory.setInt n h0' hx')) fun τ₂ h₂ => ?_
  have hk : (var "k").eval S.size τ₂ = .ok (τ.memory.ints w.block (w.first + n)) :=
    IntExpr.eval_of_value h₂.known (by unfold IntExpr.value Known.set; rw [if_pos rfl]; rfl)
  refine (h₂.runs_setElem hctx hw hp₁ (by omega) hk (h₂.memory.setInt q h0 hx)).mono (fun τ₃ h₃ => ?_) fun _ _ h => h
  exact h₃.mono (fun _ hm => hm) (ρ.forget_le_set (List.mem_singleton_self "k") _)

/-- While the pivot of row `n` is looked for, the best row so far is `q`. -/
structure Search (s : LinearSystem) (S : Scope) (K : List String) (w : View) (ρ : Known) (n q : Nat) (ρ' : Known)
    (τ : State R) : Prop where
  keeps : ρ.Keeps ρ' ["p", "j", "k"]
  row : (var "i").Counts ρ' n
  best : (var "p").Counts ρ' q
  lt : q < s.dim
  fits : Fits S (IsRows s.dim w) K ρ' τ

omit [Arithmetic R] in
theorem Search.setCounter {n q : Nat} {ρ' : Known} (h : Search s S K w ρ n q ρ' τ) (k : Nat) :
    Search s S K w ρ n q (ρ'.set "j" (some (k : Int))) (τ.setInt "j" k) where
  keeps := h.keeps.set (by simp) _
  row := counts_set_of_ne h.row (by simp) _
  best := counts_set_of_ne h.best (by simp) _
  lt := h.lt
  fits := h.fits.setInt "j" (.inr rfl)

/-- The best row stays a row of the system. -/
theorem findPivot_runs (hctx : ctx.size = S.size) (ha : s.dim * s.dim ≤ S.length a) {n q : Nat} {ρ₀ : Known}
    (hn : n < s.dim) (hτ : Search s S K w ρ n q ρ₀ τ) :
    Runs E ctx
      (.countUp "j" (var "i" + 1) s.dim .hanging
        (.when (.greater (.abs (s.entry (var "j") (var "i"))) (.abs (s.entry (var "p") (var "i")))) .inline
          (.assignInt ⟨.name "p", none⟩ (var "j"))))
      τ (fun τ' => ∃ q ρ', Search s S K w ρ n q ρ' τ') D := by
  refine Runs.countUp (a := (n + 1 : Nat)) (b := s.dim)
    (fun k τ' => ∃ (m q : Nat) (ρ' : Known), k = m ∧ (var "j").Counts ρ' m ∧ Search s S K w ρ n q ρ' τ') ?_ ?_ ?_ ?_ ?_ ?_
  · rw [hctx]
    exact IntExpr.eval_of_value hτ.fits.known (hτ.row.add (counts_lit 1))
  · exact fun _ _ _ => rfl
  · exact ⟨n + 1, q, _, rfl, counts_set_self ρ₀ "j" _, hτ.setCounter (n + 1)⟩
  · rintro k τ' ⟨m, q, ρ', rfl, hj, hτ'⟩
    exact hτ'.fits.known.value (Option.join_eq_some_iff.1 hj)
  · rintro k τ' - hk ⟨m, q, ρ', rfl, hj, hτ'⟩
    have hm : m < s.dim := by omega
    have htest : (Test.greater (.abs (s.entry (var "j") (var "i"))) (.abs (s.entry (var "p") (var "i")))).InBounds S K ρ' :=
      ⟨within_index ha hj hτ'.row hm hn, within_index ha hτ'.best hτ'.row hτ'.lt hn⟩
    obtain ⟨t, ht⟩ := Test.InBounds.eval hτ'.fits htest
    rw [← hctx] at ht
    refine Runs.when ht (fun _ => ?_) fun _ => ?_
    · have hset := hτ'.fits.runs_setInt (E := E) (D := D) hctx "p" (IntExpr.eval_of_value hτ'.fits.known hj)
      refine hset.mono (fun τ₁ h₁ => ?_) fun _ _ h => h
      have hj₁ := counts_set_of_ne (n := "p") hj (by simp) (some (m : Int))
      have hτ₁ : Search s S K w ρ n m (ρ'.set "p" (some (m : Int))) τ₁ :=
        ⟨hτ'.keeps.set (by simp) _, counts_set_of_ne hτ'.row (by simp) _, counts_set_self ρ' "p" m, hm, h₁⟩
      exact ⟨h₁.known.value (Option.join_eq_some_iff.1 hj₁), m + 1, m, _, rfl, counts_set_self _ "j" _,
        hτ₁.setCounter (m + 1)⟩
    · exact ⟨hτ'.fits.known.value (Option.join_eq_some_iff.1 hj), m + 1, q, _, rfl, counts_set_self ρ' "j" _,
        hτ'.setCounter (m + 1)⟩
  · rintro τ' ⟨m, q, ρ', -, -, hτ'⟩
    exact ⟨q, ρ', hτ'⟩

theorem exchange_inBounds {array : Ref} {i j : IntExpr} (hi : S.Within ρ array i) (hj : S.Within ρ array j) :
    (exchange array i j).InBounds S K ρ := by
  refine ⟨⟨.inl rfl, hi⟩, ?_⟩
  rw [after_assign]
  refine ⟨inBounds_assign_entry hi hj, ?_⟩
  rw [after_assign]
  refine inBounds_assign_entry hj ?_
  exact List.mem_append_right _ (List.mem_cons_self)

/-- The statements that move the pivot to its row, in a state in which it has been found. -/
theorem exchangeRows_runs (hctx : S.Serves E (IsRows s.dim w) ctx) (hw : S.arrays "rk_perm" = some w)
    (hdim : w.length = s.dim) (ha : s.dim * s.dim ≤ S.length a) (hb : s.dim ≤ S.length b) {n q : Nat} {ρ' : Known}
    (hn : n < s.dim) (hτ : Search s S K w ρ n q ρ' τ) :
    Runs E ctx
      (.block [
        .each "k" s.dim .braces (exchange a (s.index (var "i") (var "k")) (s.index (var "p") (var "k"))),
        exchange b (var "i") (var "p"),
        exchangePerm (var "i") (var "p")])
      τ (Fits S (IsRows s.dim w) K (ρ.forget ["p", "j", "k"])) fun _ m => IsRows s.dim w m.ints := by
  have hrows : (Stmt.each "k" s.dim .braces
      (exchange a (s.index (var "i") (var "k")) (s.index (var "p") (var "k")))).InBounds S K ρ' := by
    refine inBounds_each (by simp [exchange]) fun k ρk hk hck hkk => exchange_inBounds ?_ ?_
    · exact within_index ha (hkk.counts (by simp [exchange]) hτ.row) hck hn hk
    · exact within_index ha (hkk.counts (by simp [exchange]) hτ.best) hck hτ.lt hk
  refine Runs.block_cons (hrows.runs hctx hτ.fits) fun τ₁ h₁ => ?_
  have hk₁ := Known.keeps_after (.each "k" s.dim .braces
    (exchange a (s.index (var "i") (var "k")) (s.index (var "p") (var "k")))) ρ'
  have hi₁ := hk₁.counts (by simp [exchange]) hτ.row
  have hp₁ := hk₁.counts (by simp [exchange]) hτ.best
  have hq := hτ.lt
  refine Runs.block_cons ((exchange_inBounds (hi₁.within (by omega)) (hp₁.within (by omega))).runs hctx h₁)
    fun τ₂ h₂ => ?_
  have hk₂ := Known.keeps_after (exchange b (var "i") (var "p"))
    ((Stmt.each "k" s.dim .braces (exchange a (s.index (var "i") (var "k")) (s.index (var "p") (var "k")))).after ρ')
  have hi₂ := hk₂.counts (by simp [exchange]) hi₁
  have hp₂ := hk₂.counts (by simp [exchange]) hp₁
  refine (exchangePerm_runs hctx.size hw hdim h₂ hi₂ hp₂ hn hq).mono (fun τ₃ h₃ => ?_) fun _ _ h => h
  refine h₃.mono (fun m hm => List.mem_append_right _ hm) ?_
  exact ((hτ.keeps.trans hk₁ (by simp [exchange])).trans hk₂ (by simp [exchange])).trans (.forget _ ["k"]) (by simp)

theorem pivot_runs (hctx : S.Serves E (IsRows s.dim w) ctx) (hw : S.arrays "rk_perm" = some w) (hdim : w.length = s.dim)
    (ha : s.dim * s.dim ≤ S.length a) (hb : s.dim ≤ S.length b) (hs : Fits S (IsRows s.dim w) K ρ τ) {n : Nat}
    (hi : (var "i").Counts ρ n) (hn : n < s.dim) :
    Runs E ctx s.pivot τ (Fits S (IsRows s.dim w) K (ρ.forget ["p", "j", "k"]))
      fun _ m => IsRows s.dim w m.ints := by
  unfold pivot
  refine Runs.block_cons (hs.runs_setInt hctx.size "p" (IntExpr.eval_of_value hs.known hi)) fun τ₁ h₁ => ?_
  have hsearch : Search s S K w ρ n n _ τ₁ :=
    ⟨(Known.Keeps.refl ρ _).set (by simp) _, counts_set_of_ne hi (by simp) _, counts_set_self ρ "p" n, hn, h₁⟩
  refine Runs.block_cons (findPivot_runs hctx.size ha hn hsearch) fun τ₂ hnext => ?_
  obtain ⟨q, ρ', h₂⟩ := hnext
  have hcond : (Cond.ne (var "p") (var "i")).InBounds S ρ' := ⟨h₂.best.isSome, h₂.row.isSome⟩
  obtain ⟨t, ht⟩ := Cond.InBounds.eval h₂.fits hcond
  rw [← hctx.size] at ht
  refine Runs.when ht (fun _ => exchangeRows_runs hctx hw hdim ha hb hn h₂) fun _ => ?_
  exact h₂.fits.mono (fun _ hm => hm) h₂.keeps

end Pivoting

/-! ## The generated functions -/

section Functions

variable {R : Type} [Arithmetic R] {E : Fault → Prop} {ctx : Context R} {τ : State R} {w : View}

/-- The permutation starts as the identity. -/
theorem identity_runs (hctx : ctx.size = S.size) (hw : S.arrays "rk_perm" = some w) (hdim : w.length = s.dim)
    {I : (Block → Nat → Int) → Prop} (hs : Fits S I K ρ τ) {D : Answer R → Memory R → Prop} :
    Runs E ctx (.each "i" s.dim .inline (.assignInt (perm.entry (var "i")) (var "i"))) τ
      (Fits S (IsRows s.dim w) K (ρ.forget ["i"])) D := by
  have h0 : Fits S (RowsBelow s.dim 0 w) K ρ τ := ⟨hs.known, hs.reals, hs.arrays, RowsBelow.zero⟩
  refine h0.runs_each (I := fun n => RowsBelow s.dim n w) ["i"] (by simp) fun n ρ' τ' hn hkeep hi hτ => ?_
  have hset := hτ.runs_setElem (E := E) (D := D) hctx hw hi (by omega) (IntExpr.eval_of_value hτ.known hi)
    (hτ.memory.snoc (Int.natCast_nonneg n) (Int.ofNat_lt.2 hn))
  exact hset.mono (fun τ₁ h₁ => ⟨ρ', hkeep, hi, h₁⟩) fun _ _ h => h

/-- One column is reduced: its pivot is found and the rows below it change. A zero pivot ends the function. -/
theorem reduce_runs (hctx : S.Serves E (IsRows s.dim w) ctx) (hw : S.arrays "rk_perm" = some w) (hdim : w.length = s.dim)
    (ha : s.dim * s.dim ≤ S.length a) (hb : s.dim ≤ S.length b) (hs : Fits S (IsRows s.dim w) K ρ τ) {n : Nat}
    (hi : (var "i").Counts ρ n) (hn : n < s.dim) (hdet : "det" ∈ K) :
    Runs E ctx
      (.block [
        s.pivot,
        .assign ⟨.name "det", none⟩ .mul (s.entry (var "i") (var "i")),
        .when (.isZero (s.entry (var "i") (var "i"))) .inline (.returnInt 1),
        s.eliminate])
      τ (Fits S (IsRows s.dim w) K (ρ.forget ["p", "j", "k"])) fun _ m => IsRows s.dim w m.ints := by
  refine Runs.block_cons (pivot_runs hctx hw hdim ha hb hs hi hn) fun τ₁ h₁ => ?_
  have hi₁ := (Known.Keeps.forget ρ ["p", "j", "k"]).counts (by simp) hi
  have hrest : (Stmt.block [
      .assign ⟨.name "det", none⟩ .mul (s.entry (var "i") (var "i")),
      .when (.isZero (s.entry (var "i") (var "i"))) .inline (.returnInt 1),
      s.eliminate]).InBounds S K (ρ.forget ["p", "j", "k"]) := by
    refine inBounds_block_step ⟨.inr hdet, within_index ha hi₁ hi₁ hn hn⟩ fun ρ₂ h₂ => ?_
    have hi₂ := h₂.counts (by simp) hi₁
    refine inBounds_block_step ⟨within_index ha hi₂ hi₂ hn hn, trivial⟩ fun ρ₃ h₃ => ?_
    exact eliminate_inBounds ha hb (h₃.counts (by simp [assigned]) hi₂) hn
  refine (hrest.runs hctx h₁).mono (fun τ₂ h₂ => h₂.mono (fun m hm => List.mem_append_right _ hm) ?_) fun _ _ h => h
  exact (Known.Keeps.forget ρ ["p", "j", "k"]).trans (Known.keeps_after _ _) (by simp [assigned, eliminate])

/-- All columns are reduced in turn. -/
theorem factorize_runs (hctx : S.Serves E (IsRows s.dim w) ctx) (hw : S.arrays "rk_perm" = some w)
    (hdim : w.length = s.dim) (ha : s.dim * s.dim ≤ S.length a) (hb : s.dim ≤ S.length b)
    (hs : Fits S (IsRows s.dim w) K ρ τ) (hdet : "det" ∈ K) :
    Runs E ctx
      (.each "i" s.dim .braces <| .block [
        s.pivot,
        .assign ⟨.name "det", none⟩ .mul (s.entry (var "i") (var "i")),
        .when (.isZero (s.entry (var "i") (var "i"))) .inline (.returnInt 1),
        s.eliminate])
      τ (Fits S (IsRows s.dim w) K (ρ.forget ["i", "p", "j", "k"])) fun _ m => IsRows s.dim w m.ints := by
  refine hs.runs_each (I := fun _ => IsRows s.dim w) ["i", "p", "j", "k"] (by simp) fun n ρ' τ' hn hkeep hi hτ => ?_
  refine (reduce_runs hctx hw hdim ha hb hτ hi hn hdet).mono (fun τ₁ h₁ => ?_) fun _ _ h => h
  have hforget := Known.Keeps.forget ρ' ["p", "j", "k"]
  exact ⟨_, hkeep.trans hforget (by simp), hforget.counts (by simp) hi, h₁⟩

/-- The function that factorizes leaves a permutation of rows. -/
theorem solve_runs (hctx : ∀ I, S.Serves E I ctx) (hw : S.arrays "rk_perm" = some w) (hdim : w.length = s.dim)
    (ha : s.dim * s.dim ≤ S.length a) (hb : s.dim ≤ S.length b)
    (hs : Fits S (fun _ => True) [] Known.none τ) :
    Runs E ctx s.solve.body τ (fun τ' => IsRows s.dim w τ'.memory.ints) fun _ m => IsRows s.dim w m.ints := by
  unfold solve
  refine Runs.block_cons (.next rfl hs) fun τ₁ h₁ => Runs.block_cons (.next rfl (h₁.setReal "det" _)) fun τ₂ h₂ => ?_
  refine Runs.block_cons (.next rfl h₂) fun τ₃ h₃ => ?_
  refine Runs.block_cons (identity_runs (hctx fun _ => True).size hw hdim h₃) fun τ₄ h₄ => ?_
  refine Runs.block_cons (factorize_runs (hctx _) hw hdim ha hb h₄ (by simp)) fun τ₅ h₅ => ?_
  refine Runs.block_cons ((substitute_inBounds ha hb).runs (hctx _) h₅) fun τ₆ h₆ => ?_
  have h₇ : Fits S (IsRows s.dim w) ["det"] Known.none τ₆ := h₆.mono (fun m hm => List.mem_append_right _ hm)
    (Known.none_le _)
  have hdet : (Stmt.returnTest (.isZero (.var "det"))).InBounds S ["det"] Known.none := List.mem_singleton_self _
  exact (hdet.runs (hctx _) h₇).mono (fun _ h => h.memory) fun _ _ h => h

/-- The right side is brought into the order of the permuted rows. -/
theorem permute_runs (hctx : ctx.size = S.size) (hw : S.arrays "rk_perm" = some w) (hdim : w.length = s.dim)
    (hb : s.dim ≤ S.length b) (hpermuted : s.dim ≤ S.length permuted) (hs : Fits S (IsRows s.dim w) K ρ τ)
    {D : Answer R → Memory R → Prop} :
    Runs E ctx (.each "i" s.dim .inline (.assign (permuted.entry (var "i")) .set (.elem b (.elem perm (var "i"))))) τ
      (Fits S (IsRows s.dim w) K (ρ.forget ["i"])) D := by
  refine hs.runs_each (I := fun _ => IsRows s.dim w) ["i"] (by simp) fun n ρ' τ' hn hkeep hi hτ => ?_
  obtain ⟨h0, hx⟩ := hτ.memory n hn
  obtain ⟨v, hv⟩ := Scope.tailOf_of_lt (S := S) (a := b) h0 (by omega)
  have hentry : (RealExpr.elem b (.elem perm (var "i"))).eval S.size τ' = .ok (τ'.memory.reals v.block v.first) := by
    rw [RealExpr.eval, perm, hτ.eval_elem hw hi (by omega)]
    change (do let w ← τ'.locate S.size b _; return τ'.memory.reals w.block w.first) = _
    rw [State.locate, hτ.arrays, hv]
    rfl
  have htarget : (permuted.entry (var "i")).InBounds S K ρ' .set := hi.within (Nat.lt_of_lt_of_le hn hpermuted)
  refine (hτ.runs_assign hctx hentry htarget).mono (fun τ₁ h₁ => ⟨ρ', hkeep, hi, ?_⟩) fun _ _ h => h
  exact h₁.mono (fun m hm => List.mem_append_right _ hm) (Known.Le.refl ρ')

/-- The function that solves again keeps the permutation that it finds. Its body is taken from where its own array is
declared. -/
theorem solveAgain_runs (hctx : S.Serves E (IsRows s.dim w) ctx) (hw : S.arrays "rk_perm" = some w)
    (hdim : w.length = s.dim) (ha : s.dim * s.dim ≤ S.length a) (hb : s.dim ≤ S.length b)
    (hpermuted : s.dim ≤ S.length permuted) (hs : Fits S (IsRows s.dim w) [] Known.none τ) :
    Runs E ctx
      (.block [
        .each "i" s.dim .inline (.assign (permuted.entry (var "i")) .set (.elem b (.elem perm (var "i")))),
        .countUp "i" 1 s.dim .hanging
          (.each "j" (var "i") .inline
            (.assign (permuted.entry (var "i")) .sub (s.entry (var "i") (var "j") * .elem permuted (var "j")))),
        s.substitute permuted,
        .each "i" s.dim .inline (.assign (b.entry (var "i")) .set (.elem permuted (var "i"))),
        .returnInt 0])
      τ (fun τ' => IsRows s.dim w τ'.memory.ints) fun _ m => IsRows s.dim w m.ints := by
  refine Runs.block_cons (permute_runs hctx.size hw hdim hb hpermuted hs) fun τ₁ h₁ => ?_
  have hrest : (Stmt.block [
      .countUp "i" 1 s.dim .hanging
        (.each "j" (var "i") .inline
          (.assign (permuted.entry (var "i")) .sub (s.entry (var "i") (var "j") * .elem permuted (var "j")))),
      s.substitute permuted,
      .each "i" s.dim .inline (.assign (b.entry (var "i")) .set (.elem permuted (var "i"))),
      .returnInt 0]).InBounds S [] (Known.none.forget ["i"]) := by
    refine inBounds_block_step ?_ fun ρ₂ _ => inBounds_block_step (substitute_inBounds ha hpermuted) fun ρ₃ _ => ?_
    · refine inBounds_countUp (by simp) (counts_lit 1) (counts_lit s.dim) fun i ρi _ hi hci hki => ?_
      refine inBounds_countUp (by simp) (counts_lit 0) ((Known.Keeps.forget ρi _).counts (by simp) hci) fun j ρj _ hj hcj hkj => ?_
      have hij := hkj.counts (by simp) hci
      exact inBounds_assign_entry (hij.within (by omega)) ⟨within_index ha hij hcj hi (by omega), hcj.within (by omega)⟩
    · refine inBounds_block_step (inBounds_each (by simp) fun i ρi hi hci _ => ?_) fun ρ₄ _ => trivial
      exact inBounds_assign_entry (hci.within (by omega)) (hci.within (by omega))
  exact (hrest.runs hctx h₁).mono (fun τ₂ h₂ => h₂.memory) fun _ _ h => h

/-- The scope of a function of the system: its arrays, and no calls. -/
def scope (size : Struct → String → Nat) (arrays : String → Option View) : Scope :=
  ⟨size, arrays, fun _ _ => False, fun _ _ => False⟩

omit [Arithmetic R] in
theorem scope_serves (I : (Block → Nat → Int) → Prop) (arrays : String → Option View) :
    (scope ctx.size arrays).Serves E I ctx :=
  ⟨rfl, fun _ _ _ h => h.elim, fun _ _ _ h => h.elim⟩

variable {file : Statics R} {va vb : View} {m : Memory R}

/-- The arrays of a call. -/
def argumentArrays (outer : String → Option View) (va vb w : View) (n : String) : Option View :=
  if n = "rk_perm" then some w else if n = "b" then some vb else if n = "A" then some va else outer n

omit [Arithmetic R] in
theorem onlyInts_solve (s : LinearSystem) : s.solve.body.OnlyInts := by
  simp [solve, pivot, eliminate, substitute, exchange, exchangePerm, block, each, OnlyInts]

/-- A call that factorizes ends well with a status and leaves a permutation of rows. -/
theorem meets_solve (ha : va.length = s.dim * s.dim) (hb : vb.length = s.dim)
    (hw : w.length = s.dim) :
    Meets E (s.solve.invoke ctx file [.array va, .array vb, .array w] m)
      fun r => ∃ k, r.1 = .int k ∧ IsRows s.dim w r.2.ints := by
  let S := scope ctx.size (argumentArrays file.arrays va vb w)
  have hva : s.dim * s.dim ≤ S.length a := Nat.le_of_eq ha.symm
  have hvb : s.dim ≤ S.length b := Nat.le_of_eq hb.symm
  have hrows : Meets E (s.solve.invoke ctx file [.array va, .array vb, .array w] m) fun r => IsRows s.dim w r.2.ints :=
    Function.meets_invoke rfl (solve_runs (fun I => scope_serves I _) rfl hw hva hvb
      ⟨Known.of_none _, fun n hn => absurd hn List.not_mem_nil, rfl, trivial⟩)
  refine (hrows.and (Function.answers_int s.onlyInts_solve trivial)).mono fun r hr => ?_
  obtain ⟨hrow, k, hk⟩ := hr
  exact ⟨k, hk, hrow⟩

/-- A call that solves again ends well if the permutation is one of rows, and leaves it so. -/
theorem meets_solveAgain (ha : va.length = s.dim * s.dim) (hb : vb.length = s.dim)
    (hw : w.length = s.dim) (hrows : IsRows s.dim w m.ints) :
    Meets E (s.solveAgain.invoke ctx file [.array va, .array vb, .array w] m) fun r => IsRows s.dim w r.2.ints := by
  let own : View := ⟨.auto s.solveAgainName "rk_bPerm", 0, s.dim⟩
  let S := scope ctx.size fun n => if n = "rk_bPerm" then some own else argumentArrays file.arrays va vb w n
  have hva : s.dim * s.dim ≤ S.length a := Nat.le_of_eq ha.symm
  have hvb : s.dim ≤ S.length b := Nat.le_of_eq hb.symm
  refine Function.meets_invoke rfl ?_
  refine Runs.block_cons (.next rfl rfl) fun τ₁ h₁ => Runs.block_cons (.next rfl rfl) fun τ₂ h₂ => ?_
  subst h₁ h₂
  exact solveAgain_runs (scope_serves _ _) rfl hw hva hvb (Nat.le_refl s.dim)
    ⟨Known.of_none _, fun n hn => absurd hn List.not_mem_nil, rfl, hrows⟩

end Functions

end LinearSystem

end ControlCodegen.Integrator
