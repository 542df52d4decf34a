import PowGate.KeyFailure

/-! The pages as their templates with the placeholders filled in. The module makes one pass over a
template for each placeholder; no pass touches what another has put in, so a page is what one
reading of the template from left to right gives. -/
namespace PowGate

open Text Rewriting

/-- The script tag's address in a template, up to the quote that ends it. -/
def solverAddress : Bytes := placeholder "endpoint" ++ ascii "solver.js"

def challengeRules (query : Bytes) (difficulty : UInt64) (endpoint : Bytes) : List (Rule UInt8) :=
  [(solverAddress ++ [34], endpoint ++ (ascii "solver.js" ++ 63 :: query ++ [34])),
    (solverAddress ++ [39], endpoint ++ (ascii "solver.js" ++ 63 :: query ++ [39])),
    (placeholder "difficulty", decimal difficulty.toNat), (placeholder "endpoint", endpoint)]

section Rules

variable {query : Bytes}

theorem address_marked (quote : UInt8) (plain : quote ≠ 123) : Marked 123 (solverAddress ++ [quote]) := by
  refine ⟨ascii "endpoint\x7d\x7dsolver.js" ++ [quote], rfl, ?_, by simp⟩
  have clean : 123 ∉ ascii "endpoint\x7d\x7dsolver.js" := by decide
  simp [clean,plain.symm]

theorem versioned_marked (clean : 123 ∉ query) (quote : UInt8) (plain : quote ≠ 123) :
    Marked 123 (solverAddress ++ 63 :: query ++ [quote]) := by
  refine ⟨ascii "endpoint\x7d\x7dsolver.js" ++ 63 :: query ++ [quote], rfl, ?_, by simp⟩
  have fixed : 123 ∉ ascii "endpoint\x7d\x7dsolver.js" := by decide
  simp [fixed,clean,plain.symm]

theorem difficulty_marked : Marked 123 (placeholder "difficulty") := ⟨ascii "difficulty\x7d\x7d", rfl, by decide, by decide⟩

theorem endpoint_marked : Marked 123 (placeholder "endpoint") := ⟨ascii "endpoint\x7d\x7d", rfl, by decide, by decide⟩

theorem versioned_closed (clean : 123 ∉ query) (quote : UInt8) (plain : quote ≠ 123) (rule : Rule UInt8)
    (known : rule.1 = solverAddress ++ [39] ∨ rule.1 = placeholder "difficulty" ∨ rule.1 = placeholder "endpoint") :
    Closed [rule] (solverAddress ++ 63 :: query ++ [quote]) := by
  have longer : ∀ short : Bytes, ¬ solverAddress ++ [63] <+: short → ¬ solverAddress ++ 63 :: query ++ [quote] <+: short := by
    intro short absent here
    refine absent (List.IsPrefix.trans ?_ here)
    exact ⟨query ++ [quote], by simp⟩
  have other := versioned_marked clean quote plain
  rcases known with same | same | same
  · refine Marked.closed_marked rule (same ▸ address_marked 39 (by decide)) other fun here => ?_
    exact absurd (same ▸ here) (longer _ (by decide))
  · refine Marked.closed_marked rule (same ▸ difficulty_marked) other fun here => ?_
    exact absurd (same ▸ here) (longer _ (by decide))
  · refine Marked.closed_marked rule (same ▸ endpoint_marked) other fun here => ?_
    exact absurd (same ▸ here) (longer _ (by decide))

theorem decimal_clean (n : Nat) : 123 ∉ decimal n ∧ ∃ c rest, decimal n = c :: rest ∧ c ∉ placeholder "endpoint" := by
  have brace : isDigit 123 = false := by decide
  have letters : (placeholder "endpoint").all (fun c => !isDigit c) = true := by decide
  constructor
  · intro member
    rw [decimal_digits member] at brace
    cases brace
  · obtain ⟨c, rest, split, _⟩ := decimal_unsigned n
    have digit : isDigit c = true := decimal_digits (by rw [split]; exact List.mem_cons_self)
    refine ⟨c, rest, split, ?_⟩
    intro member
    have other := List.all_eq_true.mp letters c member
    rw [digit] at other
    cases other

/-- A versioned address is neither the other quoted address nor the difficulty. -/
theorem versioned_kept (clean : 123 ∉ query) (quote : UInt8) (plain : quote ≠ 123) (rule : Rule UInt8)
    (known : rule.1 = solverAddress ++ [39] ∨ rule.1 = placeholder "difficulty") :
    substitute [rule] (solverAddress ++ 63 :: query ++ [quote]) = solverAddress ++ 63 :: query ++ [quote] := by
  have begins : solverAddress ++ [63] <+: solverAddress ++ 63 :: query ++ [quote] := ⟨query ++ [quote], by simp⟩
  have other := versioned_marked clean quote plain
  rcases known with same | same
  · refine Marked.substitute_marked rule (same ▸ address_marked 39 (by decide)) other fun here => ?_
    rw [same] at here
    rcases List.prefix_or_prefix_of_prefix here begins with one | two
    · exact absurd one (by decide)
    · exact absurd two (by decide)
  · refine Marked.substitute_marked rule (same ▸ difficulty_marked) other fun here => ?_
    rw [same] at here
    rcases List.prefix_or_prefix_of_prefix here begins with one | two
    · exact absurd one (by decide)
    · exact absurd two (by decide)

theorem versioned_filled (clean : 123 ∉ query) (quote : UInt8) (plain : quote ≠ 123) (endpoint : Bytes) :
    substitute [(placeholder "endpoint", endpoint)] (solverAddress ++ 63 :: query ++ [quote]) =
      endpoint ++ (ascii "solver.js" ++ 63 :: query ++ [quote]) := by
  have proper : Proper [(placeholder "endpoint", endpoint)] := by
    simpa [Proper] using endpoint_marked.ne_nil
  have shape : solverAddress ++ 63 :: query ++ [quote] = placeholder "endpoint" ++ (ascii "solver.js" ++ 63 :: query ++ [quote]) := by
    simp [solverAddress]
  have found : first [(placeholder "endpoint", endpoint)] (placeholder "endpoint" ++ (ascii "solver.js" ++ 63 :: query ++ [quote])) =
      some (endpoint, ascii "solver.js" ++ 63 :: query ++ [quote]) := by
    rw [first,if_pos (List.prefix_append _ _),List.drop_left]
  have rest : 123 ∉ ascii "solver.js" ++ 63 :: query ++ [quote] := by
    have fixed : 123 ∉ ascii "solver.js" := by decide
    simp [fixed,clean,plain.symm]
  rw [shape,substitute_first proper found,Marked.substitute_absent (placeholder "endpoint", endpoint) endpoint_marked rest]

/-- The passes over a template, for any version without a brace. -/
theorem passes_at_once (clean : 123 ∉ query) (raw : Bytes) (difficulty : UInt64) (endpoint : Bytes) :
    replaceAll (replaceAll (replaceAll (replaceAll raw (solverAddress ++ [34]) (solverAddress ++ 63 :: query ++ [34]))
      (solverAddress ++ [39]) (solverAddress ++ 63 :: query ++ [39])) (placeholder "difficulty") (decimal difficulty.toNat))
      (placeholder "endpoint") endpoint = substitute (challengeRules query difficulty endpoint) raw := by
  have double := address_marked 34 (by decide)
  have single := address_marked 39 (by decide)
  have first := versioned_marked clean 34 (by decide)
  have second := versioned_marked clean 39 (by decide)
  obtain ⟨digits, head⟩ := decimal_clean difficulty.toNat
  have quoted : After [(solverAddress ++ [34], solverAddress ++ 63 :: query ++ [34])]
      (solverAddress ++ [39], solverAddress ++ 63 :: query ++ [39]) := by
    apply Marked.after _ single
    · simpa only [List.forall_mem_singleton] using double
    · simpa only [List.forall_mem_singleton] using versioned_closed clean 34 (by decide) _ (.inl rfl)
    · simpa only [List.forall_mem_singleton] using .inl first
  have counted : After [(solverAddress ++ [34], solverAddress ++ 63 :: query ++ [34]),
      (solverAddress ++ [39], solverAddress ++ 63 :: query ++ [39])]
      (placeholder "difficulty", decimal difficulty.toNat) := by
    apply Marked.after _ difficulty_marked
    · exact List.forall_mem_cons.mpr ⟨double, List.forall_mem_singleton.mpr single⟩
    · exact List.forall_mem_cons.mpr ⟨versioned_closed clean 34 (by decide) _ (.inr (.inl rfl)),
        List.forall_mem_singleton.mpr (versioned_closed clean 39 (by decide) _ (.inr (.inl rfl)))⟩
    · exact List.forall_mem_cons.mpr ⟨.inl first, List.forall_mem_singleton.mpr (.inl second)⟩
  have placed : After [(solverAddress ++ [34], solverAddress ++ 63 :: query ++ [34]),
      (solverAddress ++ [39], solverAddress ++ 63 :: query ++ [39]),
      (placeholder "difficulty", decimal difficulty.toNat)] (placeholder "endpoint", endpoint) := by
    apply Marked.after _ endpoint_marked
    · exact List.forall_mem_cons.mpr ⟨double, List.forall_mem_cons.mpr ⟨single, List.forall_mem_singleton.mpr difficulty_marked⟩⟩
    · exact List.forall_mem_cons.mpr ⟨versioned_closed clean 34 (by decide) _ (.inr (.inr rfl)),
        List.forall_mem_cons.mpr ⟨versioned_closed clean 39 (by decide) _ (.inr (.inr rfl)),
          List.forall_mem_singleton.mpr (Marked.closed_absent _ endpoint_marked digits)⟩⟩
    · exact List.forall_mem_cons.mpr ⟨.inl first, List.forall_mem_cons.mpr ⟨.inl second,
        List.forall_mem_singleton.mpr (.inr head)⟩⟩
  simp only [replaceAll_substitute]
  rw [quoted.fuse,List.map_singleton,versioned_kept clean 34 (by decide) _ (.inl rfl),List.singleton_append]
  rw [counted.fuse,List.map_cons,List.map_singleton,versioned_kept clean 34 (by decide) _ (.inr rfl),
    versioned_kept clean 39 (by decide) _ (.inr rfl),List.cons_append,List.singleton_append]
  rw [placed.fuse,List.map_cons,List.map_cons,List.map_singleton,versioned_filled clean 34 (by decide),
    versioned_filled clean 39 (by decide),Marked.substitute_absent _ endpoint_marked digits]
  rfl

end Rules

theorem solverQuery_clean (crates : Crates) (solverJs : Bytes) : 123 ∉ solverQuery crates solverJs := by
  have fixed : 123 ∉ ascii "v=" ++ packageVersion := by decide
  rw [solverQuery,List.mem_append,List.mem_cons,not_or,not_or]
  exact ⟨fixed, by decide, b64url_no_brace _⟩

/-- For every template and every endpoint, the challenge page of a location is the template with all
its placeholders filled in at once. -/
theorem challenge_page_at_once (crates : Crates) (startup : Startup) (path : Bytes) (difficulty : UInt64)
    (endpoint : Bytes) : loadPage crates startup path difficulty endpoint =
      (if path = [] then some startup.defaultPage else startup.readFile path).map
        (substitute (challengeRules (solverQuery crates startup.solverJs) difficulty endpoint)) := by
  have page (raw : Bytes) := passes_at_once (solverQuery_clean crates startup.solverJs) raw difficulty endpoint
  unfold loadPage
  split
  · exact congrArg some (page _)
  · cases startup.readFile path with
    | none => rfl
    | some raw => exact congrArg some (page raw)

def nojsRules (url : Bytes) (delay : Int64) : List (Rule UInt8) :=
  [(placeholder "pass_url", url), (placeholder "delay", integer delay.toInt)]

/-- For every template and every grant, the no-JS page is the template with both placeholders filled
in at once, when the endpoint begins with a slash and has no brace. -/
theorem nojs_page_at_once (crates : Crates) (key : Bytes) (cfg : Cfg) (rooted : cfg.endpoint.head? = some 47)
    (clean : 123 ∉ cfg.endpoint) (template : Bytes) (grant : Grant) (delay : Int64) :
    nojsPageBody template (passUrl cfg (Nojs.text crates key grant)) delay =
      substitute (nojsRules (passUrl cfg (Nojs.text crates key grant)) delay) template := by
  have waiting : Marked 123 (placeholder "delay") := ⟨ascii "delay\x7d\x7d", rfl, by decide, by decide⟩
  have passing : Marked 123 (placeholder "pass_url") := ⟨ascii "pass_url\x7d\x7d", rfl, by decide, by decide⟩
  have plain : 123 ∉ passUrl cfg (Nojs.text crates key grant) := by
    have fixed : 123 ∉ ascii "pass?t=" := by decide
    simp [passUrl,clean,fixed,Nojs.text,Crates.tag,b64url_no_brace]
  obtain ⟨rest, shape⟩ : ∃ rest, passUrl cfg (Nojs.text crates key grant) = 47 :: rest := by
    obtain ⟨tail, endpoint⟩ := List.head?_eq_some_iff.mp rooted
    exact ⟨_, by rw [passUrl,endpoint,List.cons_append,List.cons_append]⟩
  have foreign : 47 ∉ placeholder "delay" := by decide
  have after : After [(placeholder "pass_url", passUrl cfg (Nojs.text crates key grant))]
      (placeholder "delay", integer delay.toInt) := by
    apply Marked.after _ waiting
    · exact List.forall_mem_singleton.mpr passing
    · exact List.forall_mem_singleton.mpr (Marked.closed_absent _ waiting plain)
    · exact List.forall_mem_singleton.mpr (.inr ⟨47, rest, shape, foreign⟩)
  rw [nojsPageBody,replaceAll_substitute,replaceAll_substitute,after.fuse,List.map_singleton,
    Marked.substitute_absent _ waiting plain,List.singleton_append]
  rfl

/-- A template that is a link and its delay, under the default endpoint. -/
theorem nojs_page_at_once_delay :
    nojsPageBody (placeholder "pass_url" ++ 32 :: placeholder "delay") (passUrl unreadable (Nojs.text Reference.crates []
      (Nojs.newGrant (Vector.replicate 16 0) (ascii "/") 5 1700000000 []))) 5 =
    passUrl unreadable (Nojs.text Reference.crates [] (Nojs.newGrant (Vector.replicate 16 0) (ascii "/") 5 1700000000 [])) ++
      ascii " 5" := by
  rw [nojs_page_at_once Reference.crates [] unreadable (by decide) (by decide)]
  decide +kernel

end PowGate
