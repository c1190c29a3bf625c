import RefineId.DocSign.Trust
import RefineId.Semantics.Run

/-! The path search against the chains it is for: what it reports is one, and
with budget left it misses none. -/
namespace RefineId.DocSign.Trust

open Data Semantics List MaterialPool PathSearch.Problem

section Issuing
variable {Time : Type}

/-- A CA that may sign certificates, without name constraints and with room for
the CA certificates below it. -/
def MayIssue (certificate : OwnedCert Time) (intermediatesBelow : Nat) : Prop :=
  ∃ profile, certificate.extensions = some (some profile) ∧
    profile.basicConstraints.present = true ∧ profile.basicConstraints.ca = true ∧
    profile.nameConstraintsPresent = false ∧
    (∀ usage, profile.keyUsage = some usage → usage.keyCertSign = true) ∧
    ∀ limit, profile.basicConstraints.pathLen = some limit → intermediatesBelow ≤ limit

theorem mayIssue_iff {certificate : OwnedCert Time} {intermediatesBelow : Nat} :
    mayIssue certificate intermediatesBelow = true ↔ MayIssue certificate intermediatesBelow := by
  unfold mayIssue MayIssue
  split
  · rename_i hNone
    simp [hNone]
  · rename_i hNone
    simp [hNone]
  · rename_i profile hProfile
    simp [hProfile, Option.all_eq_true, and_assoc]

end Issuing

variable {Time Ocsp Crl : Type} [LinearOrder Time] {checks : Checks Time Ocsp Crl}
  {judged : OwnedCert Time} {chain : List (OwnedCert Time)}

section Chains
variable (pool : MaterialPool checks) (anchors : TrustAnchors Time) (role : AnchorRole) (time : Time)

/-- A chain from a judged certificate to its first anchor: no certificate comes
twice, each is issued by the next, and those between are CAs valid then that may
issue what is below them. -/
structure AnchoredChain (judged : OwnedCert Time) (chain : List (OwnedCert Time)) : Prop where
  head : chain.head? = some judged
  pooled : ∀ certificate ∈ chain.tail, certificate ∈ pool.certificates
  distinct : (chain.map (·.asDer)).Nodup
  linked : ∀ (index : Nat) (child issuer : OwnedCert Time), chain[index]? = some child →
    chain[index + 1]? = some issuer →
    child.issuer = issuer.subject ∧ checks.verifySignedBy child issuer = true
  between : ∀ (index : Nat) (certificate : OwnedCert Time), chain[index + 1]? = some certificate →
    index + 2 < chain.length → validAt certificate time = true ∧ MayIssue certificate index
  first : ∀ (index : Nat) (certificate : OwnedCert Time), chain[index]? = some certificate →
    index + 1 < chain.length → isAnchor anchors certificate role time = false
  anchored : ∃ last, chain.getLast? = some last ∧ isAnchor anchors last role time = true
  depth : chain.length ≤ maxPathDepth

structure Climbs (judged : OwnedCert Time) (path : List (OwnedCert Time)) : Prop where
  head : path.head? = some judged
  pooled : ∀ certificate ∈ path.tail, certificate ∈ pool.certificates
  distinct : (path.map (·.asDer)).Nodup
  linked : ∀ (index : Nat) (child issuer : OwnedCert Time), path[index]? = some child →
    path[index + 1]? = some issuer →
    child.issuer = issuer.subject ∧ checks.verifySignedBy child issuer = true
  eligible : ∀ (index : Nat) (certificate : OwnedCert Time), path[index + 1]? = some certificate →
    isAnchor anchors certificate role time = true ∨
      validAt certificate time = true ∧ MayIssue certificate index
  first : ∀ (index : Nat) (certificate : OwnedCert Time), path[index]? = some certificate →
    index + 1 < path.length → isAnchor anchors certificate role time = false

variable {pool anchors role time} {top next : OwnedCert Time} {path : List (OwnedCert Time)}

theorem Climbs.start (judged : OwnedCert Time) : Climbs pool anchors role time judged [judged] where
  head := rfl
  pooled := by simp
  distinct := by simp
  linked index child issuer _ hIssuer := by simp at hIssuer
  eligible index certificate hCertificate := by simp at hCertificate
  first index certificate _ hIndex := by simp at hIndex

theorem eligible_iff {child candidate : OwnedCert Time} {step : Step Time} :
    step.eligible child candidate = true ↔ candidate.asDer ≠ child.asDer ∧
      candidate.subject = child.issuer ∧
      (isAnchor step.anchors candidate step.role step.time = true ∨
        validAt candidate step.time = true ∧ MayIssue candidate step.intermediatesBelow) := by
  simp [Step.eligible, ← mayIssue_iff, and_assoc]

/-- The ways on from a path, in the terms of the chains. -/
theorem mem_successors (hTop : path.getLast? = some top) :
    next ∈ (pool.pathProblem anchors role time).successors path ↔
      next ∈ pool.certificates ∧
      Step.eligible ⟨anchors, role, time, path.length - 1⟩ top next = true ∧
      checks.verifySignedBy top next = true ∧ ∀ seen ∈ path, seen.asDer ≠ next.asDer := by
  simp only [successors, pathProblem, hTop, mem_filter,
    Option.elim_some, Option.any_some, Bool.not_eq_true', any_eq_false, decide_eq_true_eq]
  exact and_assoc.trans (and_assoc.trans Iff.rfl)

theorem Climbs.snoc (h : Climbs pool anchors role time judged path)
    (hTop : path.getLast? = some top) (hFirst : isAnchor anchors top role time = false)
    (hNext : next ∈ (pool.pathProblem anchors role time).successors path) :
    Climbs pool anchors role time judged (path ++ [next]) := by
  obtain ⟨hMem, hEligible, hVerify, hNew⟩ := (mem_successors hTop).mp hNext
  obtain ⟨-, hName, hIssue⟩ := eligible_iff.mp hEligible
  obtain ⟨rest, hPath⟩ := List.head?_eq_some_iff.mp h.head
  have hPlace : path[path.length - 1]? = some top := by rw [← List.getLast?_eq_getElem?, hTop]
  refine ⟨by simp [hPath], ?_, ?_, ?_, ?_, ?_⟩
  · rw [tail_append_of_ne_nil (by simp [hPath])]
    exact forall_mem_snoc h.pooled hMem
  · rw [map_append, nodup_append]
    refine ⟨h.distinct, by simp, ?_⟩
    intro der hDer other hOther
    obtain ⟨seen, hSeen, rfl⟩ := mem_map.mp hDer
    simp only [map_cons, map_nil, mem_singleton] at hOther
    rw [hOther]
    exact hNew seen hSeen
  · intro index child issuer hChild hIssuer
    rcases getElem?_append_singleton.mp hIssuer with hIssuer | ⟨hLast, rfl⟩
    · have hLt := (List.getElem?_eq_some_iff.mp hIssuer).1
      rw [List.getElem?_append_left (by omega)] at hChild
      exact h.linked index child issuer hChild hIssuer
    · rw [List.getElem?_append_left (by omega), show index = path.length - 1 by omega,
        hPlace] at hChild
      cases hChild
      exact ⟨hName.symm, hVerify⟩
  · intro index certificate hCertificate
    rcases getElem?_append_singleton.mp hCertificate with hOld | ⟨hLast, rfl⟩
    · exact h.eligible index certificate hOld
    · rw [show path.length - 1 = index by omega] at hIssue
      exact hIssue
  intro index certificate hCertificate hIndex
  rw [length_append, length_singleton] at hIndex
  rw [List.getElem?_append_left (by omega)] at hCertificate
  by_cases hEnd : index + 1 < path.length
  · exact h.first index certificate hCertificate hEnd
  rw [show index = path.length - 1 by omega, hPlace] at hCertificate
  cases hCertificate
  exact hFirst

/-- The judged certificate is no anchor where the search starts. -/
theorem Climbs.top_of_not_goal (h : Climbs pool anchors role time judged path)
    (hJudged : isAnchor anchors judged role time = false)
    (hGoal : (pool.pathProblem anchors role time).goal path = false) :
    ∃ top, path.getLast? = some top ∧ isAnchor anchors top role time = false := by
  obtain ⟨rest, rfl⟩ := head?_eq_some_iff.mp h.head
  cases rest with
  | nil => exact ⟨judged, rfl, hJudged⟩
  | cons issuer rest =>
    refine ⟨_, getLast?_eq_getLast_of_ne_nil (by simp), ?_⟩
    simpa [pathProblem, getLast?_eq_getLast_of_ne_nil] using hGoal

theorem AnchoredChain.of_reaches (hJudged : isAnchor anchors judged role time = false)
    (hClimbs : Climbs pool anchors role time judged path)
    (h : (pool.pathProblem anchors role time).Reaches path chain) :
    AnchoredChain pool anchors role time judged chain := by
  induction h with
  | @goal path hDepth hGoal =>
    have hEnd : 1 < path.length ∧ path.getLast?.any (isAnchor anchors · role time) = true := by
      simpa [pathProblem] using hGoal
    refine ⟨hClimbs.head, hClimbs.pooled, hClimbs.distinct, hClimbs.linked, ?_, hClimbs.first, ?_,
      hDepth⟩
    · intro index certificate hCertificate hIndex
      refine (hClimbs.eligible index certificate hCertificate).resolve_left ?_
      rw [hClimbs.first (index + 1) certificate hCertificate hIndex]
      simp
    · cases hLast : path.getLast? with
      | none => simp [hLast] at hEnd
      | some last => exact ⟨last, rfl, by simpa [hLast] using hEnd.2⟩
  | @step path last next hDepth hGoal hNext hRest ih =>
    obtain ⟨top, hTop, hFirst⟩ := hClimbs.top_of_not_goal hJudged hGoal
    exact ih (hClimbs.snoc hTop hFirst hNext)

/-- Every chain is climbed from each of its beginnings. -/
theorem AnchoredChain.reaches (hJudged : isAnchor anchors judged role time = false)
    (h : AnchoredChain pool anchors role time judged chain) {rest : List (OwnedCert Time)}
    (hNe : path ≠ []) (hChain : path ++ rest = chain) :
    (pool.pathProblem anchors role time).Reaches path chain := by
  have hLength : path.length + rest.length = chain.length := by rw [← hChain, length_append]
  have hDepth : path.length ≤ maxPathDepth := by
    have := h.depth
    omega
  induction rest generalizing path with
  | nil =>
    rw [append_nil] at hChain
    subst hChain
    obtain ⟨last, hLast, hAnchor⟩ := h.anchored
    refine .goal hDepth ?_
    have hLong : 1 < path.length := by
      by_contra hShort
      obtain ⟨others, rfl⟩ := head?_eq_some_iff.mp h.head
      cases others with
      | nil =>
        obtain rfl : judged = last := by simpa using hLast
        rw [hJudged] at hAnchor
        cases hAnchor
      | cons issuer others => simp at hShort
    simp [pathProblem, hLong, hLast, hAnchor]
  | cons next rest ih =>
    have hPos : 0 < path.length := length_pos_iff.mpr hNe
    rw [length_cons] at hLength
    obtain ⟨top, hTop⟩ : ∃ top, path.getLast? = some top :=
      ⟨_, getLast?_eq_getLast_of_ne_nil hNe⟩
    have hPlace : chain[path.length - 1]? = some top := by
      rw [← hChain, getElem?_append_left (by omega)]
      rw [← getLast?_eq_getElem?, hTop]
    have hAbove : chain[path.length]? = some next := by simp [← hChain]
    have hFirst := h.first (path.length - 1) top hPlace (by omega)
    obtain ⟨hName, hVerify⟩ := h.linked (path.length - 1) top next hPlace
      (by rw [Nat.sub_add_cancel hPos]; exact hAbove)
    have hNew : ∀ seen ∈ path, seen.asDer ≠ next.asDer := by
      have hDistinct := h.distinct
      rw [← hChain, map_append, nodup_append] at hDistinct
      intro seen hSeen
      exact hDistinct.2.2 _ (mem_map_of_mem hSeen) _ (by simp)
    have hGoal : (pool.pathProblem anchors role time).goal path = false := by
      simp [pathProblem, hTop, hFirst]
    have hNext : next ∈ (pool.pathProblem anchors role time).successors path := by
      refine (mem_successors hTop).mpr ⟨?_, eligible_iff.mpr ⟨?_, hName.symm, ?_⟩, hVerify, hNew⟩
      · obtain ⟨first, others, rfl⟩ := exists_cons_of_ne_nil hNe
        exact h.pooled next (by simp [← hChain])
      · exact fun hSame => hNew top (mem_of_getLast? hTop) hSame.symm
      by_cases hLast : rest = []
      · subst hLast
        obtain ⟨last, hEnd, hAnchor⟩ := h.anchored
        rw [← hChain, getLast?_append] at hEnd
        cases hEnd
        exact .inl hAnchor
      · have hMore := length_pos_iff.mpr hLast
        have hBetween := h.between (path.length - 1) next
          (by rw [Nat.sub_add_cancel hPos]; exact hAbove) (by omega)
        exact .inr hBetween
    refine .step hDepth hGoal hNext (ih (by simp) (by simp [← hChain]) ?_ ?_)
    · rw [length_append, length_singleton]
      omega
    · have := h.depth
      rw [length_append, length_singleton]
      omega

end Chains

section Judgement
variable {certificate : OwnedCert Time} {pool : MaterialPool checks} {anchors : TrustAnchors Time}
  {role : AnchorRole} {moment : When Time}

theorem maxByKey_cases {α Key : Type} [LinearOrder Key] (key : α → Key) (entries : List α) :
    (entries = [] ∧ maxByKey key entries = none) ∨
      ∃ best ∈ entries, maxByKey key entries = some best ∧
        ∀ entry ∈ entries, key entry ≤ key best := by
  induction entries using reverseRecOn with
  | nil => exact .inl ⟨rfl, rfl⟩
  | append_singleton entries last ih =>
    refine .inr ?_
    unfold maxByKey at ih ⊢
    rw [foldl_append, foldl_cons, foldl_nil]
    rcases ih with ⟨rfl, hNone⟩ | ⟨best, hMem, hBest, hMost⟩
    · exact ⟨last, by simp, by rw [hNone], by simp⟩
    rw [hBest]
    by_cases hLess : key last < key best
    · refine ⟨best, mem_append_left _ hMem, if_pos hLess, ?_⟩
      exact forall_mem_snoc hMost hLess.le
    · refine ⟨last, by simp, if_neg hLess, ?_⟩
      exact forall_mem_snoc (fun entry hEntry => (hMost entry hEntry).trans (not_lt.mp hLess)) le_rfl

/-- What `judge` reports, by the paths the search found. -/
theorem judge_cases (hJudged : isAnchor anchors certificate role moment.validation = false) :
    ((judge certificate pool anchors role moment).searchExhausted = true ↔
      (pool.anchoredPaths anchors role moment.validation certificate
        maxPathSearchVerifications).budget = 0) ∧
    (((pool.anchoredPaths anchors role moment.validation certificate
          maxPathSearchVerifications).found = [] ∧
        (judge certificate pool anchors role moment).path.isAnchored = false) ∨
      ∃ best ∈ (pool.anchoredPaths anchors role moment.validation certificate
          maxPathSearchVerifications).found,
        (judge certificate pool anchors role moment).revocation = pool.pathRevocation best moment ∧
        (judge certificate pool anchors role moment).path =
          (if validAt certificate moment.validation && fitFor role certificate then
            .anchored (best.drop 1) else .partly (best.drop 1)) ∧
        ∀ other ∈ (pool.anchoredPaths anchors role moment.validation certificate
            maxPathSearchVerifications).found,
          (pool.pathRevocation other moment).preference ≤
            (pool.pathRevocation best moment).preference) := by
  unfold judge
  dsimp only
  rw [if_neg (by simp [hJudged])]
  generalize pool.anchoredPaths anchors role moment.validation certificate
    maxPathSearchVerifications = search
  refine ⟨decide_eq_true_iff, ?_⟩
  rcases maxByKey_cases (fun entry : List (OwnedCert Time) × Revocation Time => entry.2.preference)
    (search.found.map fun path => (path, pool.pathRevocation path moment)) with
    ⟨hEmpty, hNone⟩ | ⟨best, hMem, hBest, hMost⟩
  · refine .inl ⟨map_eq_nil_iff.mp hEmpty, ?_⟩
    rw [hNone]
    simp [CertificationPath.isAnchored]
  obtain ⟨path, hPath, rfl⟩ := mem_map.mp hMem
  refine .inr ⟨path, hPath, ?_, ?_, ?_⟩
  · rw [hBest]
  · rw [hBest]
    simp only [Option.isSome_some, Bool.and_true]
  · intro other hOther
    exact hMost _ (mem_map_of_mem hOther)

variable {time : Time}

theorem AnchoredChain.eq_singleton (hJudged : isAnchor anchors judged role time = true)
    (h : AnchoredChain pool anchors role time judged chain) : chain = [judged] := by
  obtain ⟨rest, rfl⟩ := head?_eq_some_iff.mp h.head
  cases rest with
  | nil => rfl
  | cons issuer rest =>
    have hFirst := h.first 0 judged rfl (by simp)
    rw [hJudged] at hFirst
    cases hFirst

theorem AnchoredChain.singleton (hJudged : isAnchor anchors judged role time = true) :
    AnchoredChain pool anchors role time judged [judged] where
  head := rfl
  pooled := by simp
  distinct := by simp
  linked index child issuer _ hIssuer := by simp at hIssuer
  between index certificate hCertificate := by simp at hCertificate
  first index certificate _ hIndex := by simp at hIndex
  anchored := ⟨judged, rfl, hJudged⟩
  depth := by simp [maxPathDepth]

theorem found_chain (hJudged : isAnchor anchors certificate role moment.validation = false) {budget}
    (h : chain ∈ (pool.anchoredPaths anchors role moment.validation certificate budget).found) :
    AnchoredChain pool anchors role moment.validation certificate chain := by
  rcases run_sound h with hNone | hReaches
  · cases hNone
  · exact .of_reaches hJudged (.start certificate) hReaches

/-- For every certificate, pool, anchors, role and time: an anchored verdict
comes with a chain to an anchor. Its certificate is valid then and fit for its
role, unless it is an anchor itself. -/
theorem anchored_verdict_sound (certificate : OwnedCert Time) (pool : MaterialPool checks)
    (anchors : TrustAnchors Time) (role : AnchorRole) (moment : When Time)
    (path : List (OwnedCert Time))
    (h : (judge certificate pool anchors role moment).path = .anchored path) :
    AnchoredChain pool anchors role moment.validation certificate (certificate :: path) ∧
      (isAnchor anchors certificate role moment.validation = false →
        validAt certificate moment.validation = true ∧
        (role = .certificateIssuing → fitToSign certificate = true)) := by
  cases hJudged : isAnchor anchors certificate role moment.validation with
  | true =>
    simp only [judge, hJudged, if_true, CertificationPath.anchored.injEq] at h
    subst h
    exact ⟨.singleton hJudged, by simp⟩
  | false =>
    obtain ⟨-, ⟨-, hNot⟩ | ⟨best, hBest, -, hPath, -⟩⟩ :=
      (judge_cases hJudged : _ ∧ (_ ∧ (judge certificate pool anchors role moment).path.isAnchored =
        false ∨ _))
    · rw [h] at hNot
      cases hNot
    rw [h] at hPath
    split at hPath
    · rename_i hFit
      cases hPath
      rw [Bool.and_eq_true] at hFit
      have hChain := found_chain hJudged hBest
      obtain ⟨rest, rfl⟩ := head?_eq_some_iff.mp hChain.head
      refine ⟨hChain, fun _ => ⟨hFit.1, ?_⟩⟩
      rintro rfl
      exact hFit.2
    · cases hPath

/-- An anchor whose own validity is over is anchored all the same. -/
theorem expired_anchor_anchored :
    let root : OwnedCert Nat := ⟨[1], [1], [1], [1], 0, 3, none⟩
    let anchors : TrustAnchors Nat := [⟨root, .certificateIssuing, [⟨0, none, by simp⟩], by simp⟩]
    (judge root (.new : MaterialPool (Checks.bare false)) anchors .certificateIssuing ⟨5, 5⟩).path =
        .anchored [] ∧
      validAt root 5 = false := by
  decide +kernel

/-- A signer under an intermediate CA, which the anchored root issued. -/
theorem anchored_verdict_signer :
    let root : OwnedCert Nat := ⟨[1], [1], [1], [1], 0, 9, none⟩
    let middle : OwnedCert Nat :=
      ⟨[2], [2], [1], [2], 0, 9, some (some ⟨⟨true, true, none⟩, none, false⟩)⟩
    let signer : OwnedCert Nat := ⟨[3], [3], [2], [3], 0, 9, none⟩
    let anchors : TrustAnchors Nat := [⟨root, .certificateIssuing, [⟨0, none, by simp⟩], by simp⟩]
    let pool : MaterialPool (Checks.bare true) :=
      (MaterialPool.new.addAnchors anchors).addCertificate middle
    AnchoredChain pool anchors .certificateIssuing 5 signer [signer, middle, root] ∧
      validAt signer 5 = true ∧ fitToSign signer = true := by
  intro root middle signer anchors pool
  obtain ⟨hChain, hFit⟩ := anchored_verdict_sound signer pool anchors .certificateIssuing ⟨5, 5⟩
    [middle, root] (by decide +kernel)
  obtain ⟨hValid, hSigns⟩ := hFit (by decide +kernel)
  exact ⟨hChain, hValid, hSigns rfl⟩

end Judgement

section Completeness
variable (certificate : OwnedCert Time) (pool : MaterialPool checks) (anchors : TrustAnchors Time)
  (role : AnchorRole) (moment : When Time)

/-- However many chains are listed, there are fewer than the search keeps. -/
def FewChains : Prop :=
  ∀ chains : List (List (OwnedCert Time)), chains.Nodup →
    (∀ chain ∈ chains, AnchoredChain pool anchors role moment.validation certificate chain) →
    chains.length < maxAnchoredPaths

/-- How many candidates there are to verify, were every verification paid for. -/
def candidates : Nat :=
  ((pool.pathProblem anchors role moment.validation).unbounded (maxPathDepth + 1) [certificate]
    ([], 0)).2

/-- The search has a candidate whose verification the budget refuses. -/
def RefusesVerification : Prop :=
  (pool.anchoredPaths anchors role moment.validation certificate
    maxPathSearchVerifications).refused = true

variable {certificate pool anchors role moment}

/-- With budget left and fewer chains than it keeps, the search finds them all. -/
theorem mem_found_iff (hJudged : isAnchor anchors certificate role moment.validation = false)
    (hFew : FewChains certificate pool anchors role moment) {budget}
    (hBudget : (pool.anchoredPaths anchors role moment.validation certificate budget).budget ≠ 0) :
    chain ∈ (pool.anchoredPaths anchors role moment.validation certificate budget).found ↔
      AnchoredChain pool anchors role moment.validation certificate chain := by
  refine ⟨found_chain hJudged, fun hChain => ?_⟩
  have hTests : ∀ path, ((pool.pathProblem anchors role moment.validation).tests path).Nodup := by
    intro path
    simp only [pathProblem]
    cases path.getLast? with
    | none => exact nodup_nil
    | some top => exact (Nodup.of_map _ pool.distinct).filter _
  have hFuel : (pool.pathProblem anchors role moment.validation).depth <
      maxPathDepth + 1 + [certificate].length := Nat.lt_of_sub_eq_succ rfl
  have hReaches (path) : path ∈ (pool.pathProblem anchors role moment.validation).paths
      (maxPathDepth + 1) [certificate] ↔
      AnchoredChain pool anchors role moment.validation certificate path := by
    rw [mem_paths_iff hFuel]
    refine ⟨.of_reaches hJudged (.start certificate), fun h => ?_⟩
    obtain ⟨rest, hRest⟩ := head?_eq_some_iff.mp h.head
    exact h.reaches hJudged (by simp) hRest.symm
  have hRoom := hFew _ (paths_nodup hTests hFuel) fun path => (hReaches path).mp
  rw [anchoredPaths, run_complete hBudget
    (by rw [length_nil, Nat.zero_add]; exact hRoom)]
  exact (hReaches chain).mpr hChain

/-- The budget is spent by as many candidates or more, and refuses one only of more. -/
theorem budget_spent_iff :
    ((pool.anchoredPaths anchors role moment.validation certificate
        maxPathSearchVerifications).budget = 0 ↔
      maxPathSearchVerifications ≤ candidates certificate pool anchors role moment) ∧
    (RefusesVerification certificate pool anchors role moment ↔
      maxPathSearchVerifications < candidates certificate pool anchors role moment) := by
  unfold RefusesVerification candidates anchoredPaths
  have hStart : Tracks maxPathSearchVerifications
      (([], 0) : List (List (OwnedCert Time)) × Nat) ⟨[], maxPathSearchVerifications, false⟩ :=
    .inl ⟨Nat.zero_le _, rfl⟩
  rcases run_tracks hStart with ⟨hPaid, hSame⟩ | ⟨hMore, hSpent, hRefused⟩
  · rw [hSame]
    exact ⟨Nat.sub_eq_zero_iff_le, by simpa using hPaid⟩
  · exact ⟨iff_of_true hSpent hMore.le, iff_of_true hRefused hMore⟩

/-- For every certificate, pool, anchors, role and time: a search with budget
left and fewer chains than it keeps anchors a valid and fit certificate that has
a chain, and reports the most preferred revocation of all chains; it says it is
exhausted only when it refused a verification, unless there are exactly as many
candidates as it pays for. -/
theorem path_search_complete_iff (certificate : OwnedCert Time) (pool : MaterialPool checks)
    (anchors : TrustAnchors Time) (role : AnchorRole) (moment : When Time) :
    ((judge certificate pool anchors role moment).searchExhausted = false →
      FewChains certificate pool anchors role moment →
      ∀ chain, AnchoredChain pool anchors role moment.validation certificate chain →
        (validAt certificate moment.validation = true → fitFor role certificate = true →
          (judge certificate pool anchors role moment).path.isAnchored = true) ∧
        (∃ best, AnchoredChain pool anchors role moment.validation certificate best ∧
          (judge certificate pool anchors role moment).revocation =
            pool.pathRevocation best moment) ∧
        (pool.pathRevocation chain moment).preference ≤
          (judge certificate pool anchors role moment).revocation.preference) ∧
    (((judge certificate pool anchors role moment).searchExhausted = true →
        RefusesVerification certificate pool anchors role moment) ↔
      (isAnchor anchors certificate role moment.validation = false →
        candidates certificate pool anchors role moment ≠ maxPathSearchVerifications)) := by
  cases hJudged : isAnchor anchors certificate role moment.validation with
  | true =>
    have hVerdict : judge certificate pool anchors role moment =
        ⟨.anchored [], .unavailable, false⟩ := by simp only [judge, hJudged, if_true]
    rw [hVerdict]
    refine ⟨fun _ _ chain hChain => ⟨fun _ _ => rfl, ⟨chain, hChain, ?_⟩, ?_⟩, by simp⟩
    · rw [hChain.eq_singleton hJudged]
      rfl
    · rw [hChain.eq_singleton hJudged]
      exact le_refl _
  | false =>
    obtain ⟨hExhausted, hCases⟩ : _ ∧ (_ ∧ (judge certificate pool anchors role
      moment).path.isAnchored = false ∨ _) := judge_cases hJudged
    refine ⟨fun hLeft hFew chain hChain => ?_, ?_⟩
    · have hBudget : (pool.anchoredPaths anchors role moment.validation certificate
          maxPathSearchVerifications).budget ≠ 0 := by
        intro hSpent
        rw [hExhausted.mpr hSpent] at hLeft
        cases hLeft
      have hFound := (mem_found_iff hJudged hFew hBudget).mpr hChain
      rcases hCases with ⟨hNone, -⟩ | ⟨best, hBest, hRevocation, hPath, hMost⟩
      · rw [hNone] at hFound
        cases hFound
      refine ⟨fun hValid hFit => ?_, ⟨best, found_chain hJudged hBest, hRevocation⟩, ?_⟩
      · rw [hPath, hValid, hFit]
        rfl
      · rw [hRevocation]
        exact hMost chain hFound
    rw [hExhausted, budget_spent_iff.1, budget_spent_iff.2]
    constructor
    · intro hRefuses _ hAll
      exact absurd (hRefuses hAll.ge) hAll.not_gt
    · intro hNot hLe
      exact lt_of_le_of_ne hLe (hNot rfl).symm

/-- A hundred and twenty-eight CAs named as the issuer, none of which signed:
the search tests each, ends, and says it is exhausted. -/
theorem exhausted_without_refusal :
    let signer : OwnedCert Nat := ⟨[], [2], [1], [], 0, 9, none⟩
    let pool : MaterialPool (Checks.bare false) := (range 128).foldl (fun pool serial =>
      pool.addCertificate ⟨[UInt8.ofNat serial], [1], [1], [], 0, 9,
        some (some ⟨⟨true, true, none⟩, none, false⟩)⟩) .new
    (judge signer pool [] .certificateIssuing ⟨5, 5⟩).searchExhausted = true ∧
      ¬ RefusesVerification signer pool [] .certificateIssuing ⟨5, 5⟩ := by
  unfold RefusesVerification
  decide +kernel

end Completeness

end RefineId.DocSign.Trust
