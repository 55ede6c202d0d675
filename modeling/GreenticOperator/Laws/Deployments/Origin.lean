import GreenticOperator.Deployments.TrustBoundary

/-!
# The origins that name this machine

An origin is cut at the first slash after its scheme, and the host is cut out of what
stands before it; what the second cut throws away is never looked at. `Reading` says how an
accepted origin is put together, and `isLoopbackOrigin_iff` that these are the accepted
origins. The origins the check is meant for are a grammar of its own (`Origin`);
`accepts_origins_iff` says on which texts the two agree.
-/

namespace Deployments

open Text

/-! ## The grammar -/

/-- Nothing, or a colon and a decimal number. -/
def Port (port : List Char) : Prop :=
  port = [] ∨ ∃ digits, port = ':' :: digits ∧ digits ≠ [] ∧ ∀ c ∈ digits, c.isDigit = true

theorem Port.noSlash {port : List Char} (h : Port port) : '/' ∉ port := by
  rcases h with rfl | ⟨digits, rfl, -, hdigits⟩
  · exact List.not_mem_nil
  · intro hmem
    rcases List.mem_cons.mp hmem with heq | hmem
    · exact absurd heq (by decide)
    · exact absurd (hdigits _ hmem) (by decide)

/-- Nothing, or a slash and anything. -/
def Tail (tail : List Char) : Prop := tail = [] ∨ tail.head? = some '/'

def schemes : List (List Char) := ["http://".toList, "https://".toList]

/-- The hosts of this machine as an origin writes them. -/
def originHosts : List (List Char) :=
  ["localhost".toList, "127.0.0.1".toList, "[::1]".toList, "[0:0:0:0:0:0:0:1]".toList]

/-- A loopback origin: scheme, host, port and a tail. -/
def Origin (s : String) : Prop :=
  ∃ scheme ∈ schemes, ∃ host ∈ originHosts, ∃ port tail,
    Port port ∧ Tail tail ∧ s.toList = scheme ++ (host ++ port ++ tail)

/-! ## How an accepted origin reads -/

/-- A text cut into a scheme that may be missing, a host of this machine, whatever else
stands before the first slash, and the rest. A host in brackets is only its opening bracket
and its name here: the closing bracket belongs to what follows. -/
structure Reading where
  scheme : List Char
  bracket : Bool
  name : List Char
  rest : List Char
  tail : List Char

namespace Reading

/-- What stands between the scheme and the tail. -/
def authority (r : Reading) : List Char :=
  (if r.bracket then ['['] else []) ++ r.name ++ r.rest

/-- The character that ends the name. -/
def closing (r : Reading) : Char := if r.bracket then ']' else ':'

/-- `r` is how the text `s` reads. -/
structure Of (r : Reading) (s : String) : Prop where
  text : s.toList = r.scheme ++ (r.authority ++ r.tail)
  scheme : r.scheme = [] ∨ r.scheme ∈ schemes
  name : String.ofList r.name ∈ loopbackHosts
  /-- Only a name in brackets may hold a colon. -/
  bare : r.closing ∉ r.name
  rest : r.rest = [] ∨ r.rest.head? = some r.closing
  noSlash : '/' ∉ r.rest
  tail : Tail r.tail

/-- The reading of an origin of the grammar: the scheme is there, a name stands bare before
its port, and an address stands in brackets before its port. -/
def Tidy (r : Reading) : Prop :=
  r.scheme ∈ schemes ∧
    if r.bracket then ':' ∈ r.name ∧ ∃ port, Port port ∧ r.rest = ']' :: port
    else Port r.rest

end Reading

/-! ## The cuts of the source -/

theorem afterScheme_append {s : String} {scheme rest : List Char}
    (hscheme : scheme = [] ∨ scheme ∈ schemes) (hrest : rest.head? ≠ some 'h')
    (hs : s.toList = scheme ++ rest) : (afterScheme s).toList = rest := by
  have hcut : ∀ front : String, s.toList = front.toList ++ rest →
      stripPrefix front s = some (String.ofList rest) := by
    intro front hfront
    refine stripPrefix_eq_some_iff.mpr (String.toList_injective ?_)
    rw [String.toList_append, String.toList_ofList, hfront]
  unfold afterScheme
  rcases hscheme with rfl | hmem
  · have hnone : ∀ front : String, front.toList.head? = some 'h' → stripPrefix front s = none := by
      intro front hfront
      refine stripPrefix_eq_none_iff.mpr fun hprefix => hrest ?_
      rw [hs, List.nil_append] at hprefix
      obtain ⟨more, rfl⟩ := hprefix
      rw [List.head?_append, hfront, Option.some_or]
    rw [hnone "http://" rfl, hnone "https://" rfl, Option.or_none, Option.getD_none, hs,
      List.nil_append]
  · simp only [schemes, List.mem_cons, List.not_mem_nil, or_false] at hmem
    rcases hmem with rfl | rfl
    · rw [hcut "http://" hs, Option.some_or, Option.getD_some, String.toList_ofList]
    · have hnone : stripPrefix "http://" s = none := by
        refine stripPrefix_eq_none_iff.mpr fun hprefix => ?_
        rw [hs] at hprefix
        simp [List.cons_prefix_cons] at hprefix
      rw [hnone, hcut "https://" hs, Option.none_or, Option.getD_some, String.toList_ofList]

theorem afterScheme_decomp (s : String) :
    ∃ scheme, (scheme = [] ∨ scheme ∈ schemes) ∧ s.toList = scheme ++ (afterScheme s).toList := by
  unfold afterScheme
  cases hhttp : stripPrefix "http://" s with
  | some rest =>
    refine ⟨"http://".toList, .inr List.mem_cons_self, ?_⟩
    rw [Option.some_or, Option.getD_some, ← String.toList_append,
      ← stripPrefix_eq_some_iff.mp hhttp]
  | none =>
    cases hhttps : stripPrefix "https://" s with
    | some rest =>
      refine ⟨"https://".toList, .inr (List.mem_cons_of_mem _ List.mem_cons_self), ?_⟩
      rw [Option.none_or, Option.getD_some, ← String.toList_append,
        ← stripPrefix_eq_some_iff.mp hhttps]
    | none => exact ⟨[], .inl rfl, rfl⟩

/-! ## What the cuts make of a reading -/

namespace Reading

variable {r : Reading} {s : String}

/-- The names of this machine as lists of characters. -/
theorem Of.name_cases (h : r.Of s) :
    r.name ∈ ["localhost".toList, "127.0.0.1".toList, "::1".toList, "0:0:0:0:0:0:0:1".toList] := by
  have hname := h.name
  simp only [loopbackHosts, List.mem_cons, List.not_mem_nil, or_false] at hname ⊢
  refine hname.imp ?_ (Or.imp ?_ (Or.imp ?_ ?_)) <;>
    · intro heq
      rw [← heq, String.toList_ofList]

theorem Of.name_clear (h : r.Of s) :
    r.name ≠ [] ∧ '/' ∉ r.name ∧ r.name.head? ≠ some 'h' ∧ r.name.head? ≠ some '[' := by
  have hcases := h.name_cases
  generalize r.name = name at hcases
  revert name
  decide +kernel

theorem Of.authority_head (h : r.Of s) :
    r.authority.head? = if r.bracket then some '[' else r.name.head? := by
  unfold authority
  cases hb : r.bracket with
  | true => rfl
  | false =>
    rw [if_neg Bool.false_ne_true, if_neg Bool.false_ne_true, List.nil_append,
      List.head?_append_of_ne_nil _ h.name_clear.1]

theorem Of.noSlash_authority (h : r.Of s) : '/' ∉ r.authority := by
  obtain ⟨-, hname, -⟩ := h.name_clear
  unfold authority
  simp only [List.mem_append, not_or]
  refine ⟨⟨?_, hname⟩, h.noSlash⟩
  cases r.bracket <;> decide

theorem Of.afterScheme (h : r.Of s) : (afterScheme s).toList = r.authority ++ r.tail := by
  refine afterScheme_append h.scheme ?_ h.text
  rw [List.head?_append, h.authority_head]
  obtain ⟨hne, -, hhead, -⟩ := h.name_clear
  cases hb : r.bracket with
  | true => simp
  | false =>
    cases hname : r.name with
    | nil => exact absurd hname hne
    | cons c rest =>
      rw [hname] at hhead
      simpa using hhead

theorem Of.firstPart (h : r.Of s) :
    Text.firstPart '/' (Deployments.afterScheme s) = String.ofList r.authority := by
  have hs : Deployments.afterScheme s = String.ofList r.authority ++ String.ofList r.tail := by
    apply String.toList_injective
    rw [h.afterScheme, String.toList_append, String.toList_ofList, String.toList_ofList]
  rw [hs]
  refine firstPart_append (by rw [String.toList_ofList]; exact h.noSlash_authority) ?_
  refine h.tail.imp (fun hnil => by rw [hnil]) fun hhead => ?_
  rw [startsWithChar, String.toList_ofList, hhead, beq_self_eq_true]

/-- The last cut finds the name of a reading. -/
theorem Of.hostNoPort (h : r.Of s) :
    Deployments.hostNoPort (String.ofList r.authority) = String.ofList r.name := by
  have hcut : Text.firstPart r.closing (String.ofList (r.name ++ r.rest)) = String.ofList r.name := by
    rw [String.ofList_append]
    refine firstPart_append (by rw [String.toList_ofList]; exact h.bare) ?_
    refine h.rest.imp (fun hnil => by rw [hnil]) fun hhead => ?_
    rw [startsWithChar, String.toList_ofList, hhead, beq_self_eq_true]
  unfold Deployments.hostNoPort authority
  unfold closing at hcut
  cases hb : r.bracket with
  | true =>
    have hstrip : stripPrefix "[" (String.ofList ('[' :: (r.name ++ r.rest))) =
        some (String.ofList (r.name ++ r.rest)) := by
      refine stripPrefix_eq_some_iff.mpr (String.toList_injective ?_)
      rw [String.toList_append, String.toList_ofList, String.toList_ofList, String.toList_ofList]
      rfl
    rw [hb, if_pos rfl] at hcut
    rw [if_pos rfl, List.append_assoc, List.singleton_append, hstrip]
    exact hcut
  | false =>
    have hstrip : stripPrefix "[" (String.ofList (r.name ++ r.rest)) = none := by
      obtain ⟨hne, -, -, hhead⟩ := h.name_clear
      refine stripPrefix_eq_none_iff.mpr fun hprefix => hhead ?_
      obtain ⟨more, hmore⟩ := hprefix
      have hopen : '[' :: more = r.name ++ r.rest := hmore.trans String.toList_ofList
      have hhead' : (r.name ++ r.rest).head? = r.name.head? := List.head?_append_of_ne_nil _ hne
      rw [← hhead', ← hopen]
      rfl
    rw [hb, if_neg Bool.false_ne_true] at hcut
    rw [if_neg Bool.false_ne_true, List.nil_append, hstrip]
    exact hcut

theorem Of.accepted (h : r.Of s) : isLoopbackOrigin s = true := by
  unfold isLoopbackOrigin
  rw [h.firstPart, h.hostNoPort]
  exact List.contains_iff_mem.mpr h.name

/-- A text reads in one way only. -/
theorem Of.unique {r' : Reading} (h : r.Of s) (h' : r'.Of s) : r = r' := by
  have hauth : r.authority = r'.authority :=
    String.ofList_injective (h.firstPart.symm.trans h'.firstPart)
  have hname : r.name = r'.name :=
    String.ofList_injective (h.hostNoPort.symm.trans (hauth ▸ h'.hostNoPort))
  have htail : r.tail = r'.tail := by
    have heq := h.afterScheme.symm.trans h'.afterScheme
    rw [hauth] at heq
    exact List.append_cancel_left heq
  have hscheme : r.scheme = r'.scheme := by
    have heq := h.text.symm.trans h'.text
    rw [hauth, htail] at heq
    exact List.append_cancel_right heq
  have hbracket : r.bracket = r'.bracket := by
    have hhead := h.authority_head
    rw [hauth, h'.authority_head, hname] at hhead
    have hclear := h'.name_clear.2.2.2
    cases hb : r.bracket <;> cases hb' : r'.bracket <;> simp_all
  have hrest : r.rest = r'.rest := by
    have heq : r.authority = r'.authority := hauth
    unfold authority at heq
    rw [hbracket, hname] at heq
    exact List.append_cancel_left heq
  cases r
  cases r'
  simp only [Reading.mk.injEq]
  exact ⟨hscheme, hbracket, hname, hrest, htail⟩

/-! ## The accepted origins -/

theorem exists_of_accepted (h : isLoopbackOrigin s = true) : ∃ r : Reading, r.Of s := by
  obtain ⟨scheme, hscheme, hs⟩ := afterScheme_decomp s
  obtain ⟨tail, htail, htailHead⟩ := exists_eq_firstPart_append '/' (Deployments.afterScheme s)
  have hnoSlash := not_mem_firstPart '/' (Deployments.afterScheme s)
  unfold isLoopbackOrigin at h
  rw [List.contains_iff_mem] at h
  generalize Text.firstPart '/' (Deployments.afterScheme s) = site at htail hnoSlash h
  rw [htail, String.toList_append] at hs
  have htail' : Tail tail.toList := by
    refine htailHead.imp (fun hnil => by rw [hnil]; rfl) fun hhead => ?_
    exact beq_iff_eq.mp hhead
  -- what the last cut is made at, with the bracket or without
  have hcut : ∀ (bracket : Bool) (host : String),
      site.toList = (if bracket then ['['] else []) ++ host.toList →
      Text.firstPart (if bracket then ']' else ':') host ∈ loopbackHosts → ∃ r : Reading, r.Of s := by
    intro bracket host hauth hname
    obtain ⟨rest, hrest, hrestHead⟩ := exists_eq_firstPart_append (if bracket then ']' else ':') host
    have hbare := not_mem_firstPart (if bracket then ']' else ':') host
    generalize Text.firstPart (if bracket then ']' else ':') host = name at hrest hbare hname
    rw [hrest, String.toList_append] at hauth
    refine ⟨⟨scheme, bracket, name.toList, rest.toList, tail.toList⟩, ?_, hscheme, ?_, hbare, ?_, ?_,
      htail'⟩
    · rw [hs, hauth]
      simp only [authority, List.append_assoc]
    · rwa [String.ofList_toList]
    · refine hrestHead.imp (fun hnil => by rw [hnil]; rfl) fun hhead => ?_
      exact beq_iff_eq.mp hhead
    · intro hslash
      refine hnoSlash ?_
      rw [hauth]
      exact List.mem_append_right _ (List.mem_append_right _ hslash)
  unfold Deployments.hostNoPort at h
  cases hbracket : stripPrefix "[" site with
  | some host =>
    rw [hbracket] at h
    refine hcut true host ?_ h
    rw [stripPrefix_eq_some_iff.mp hbracket, String.toList_append]
    rfl
  | none =>
    rw [hbracket] at h
    exact hcut false site rfl h

/-- **The accepted origins** are the texts that have a reading. -/
theorem accepted_iff : isLoopbackOrigin s = true ↔ ∃ r : Reading, r.Of s :=
  ⟨exists_of_accepted, fun ⟨_, h⟩ => h.accepted⟩

/-! ## The readings of the grammar's origins -/

/-- The reading of an origin whose host is a name of this machine without brackets. -/
theorem exists_tidy_bare {scheme name port tail : List Char} (hscheme : scheme ∈ schemes)
    (hname : String.ofList name ∈ loopbackHosts) (hcolon : ':' ∉ name) (hport : Port port)
    (htail : Tail tail) (hs : s.toList = scheme ++ (name ++ port ++ tail)) :
    ∃ r : Reading, r.Of s ∧ r.Tidy := by
  refine ⟨⟨scheme, false, name, port, tail⟩, ⟨?_, .inr hscheme, hname, hcolon, ?_, ?_, htail⟩,
    hscheme, hport⟩
  · rw [hs]
    rfl
  · exact hport.imp id fun ⟨digits, hdigits, _⟩ => hdigits ▸ rfl
  · exact hport.noSlash

/-- The reading of an origin whose host is an address of this machine in brackets. -/
theorem exists_tidy_bracket {scheme name port tail : List Char} (hscheme : scheme ∈ schemes)
    (hname : String.ofList name ∈ loopbackHosts) (hcolon : ':' ∈ name) (hclose : ']' ∉ name)
    (hport : Port port) (htail : Tail tail)
    (hs : s.toList = scheme ++ ('[' :: name ++ [']'] ++ port ++ tail)) :
    ∃ r : Reading, r.Of s ∧ r.Tidy := by
  refine ⟨⟨scheme, true, name, ']' :: port, tail⟩, ⟨?_, .inr hscheme, hname, hclose, .inr rfl, ?_,
    htail⟩, hscheme, hcolon, port, hport, rfl⟩
  · rw [hs]
    simp only [authority, ↓reduceIte, List.append_assoc, List.cons_append, List.nil_append]
  · intro hmem
    rcases List.mem_cons.mp hmem with heq | hmem
    · exact absurd heq (by decide)
    · exact hport.noSlash hmem

theorem origin_of_tidy {r : Reading} (h : r.Of s) (htidy : r.Tidy) : Origin s := by
  obtain ⟨hscheme, hshape⟩ := htidy
  have hname := h.name_cases
  have hs := h.text
  simp only [List.mem_cons, List.not_mem_nil, or_false] at hname
  unfold authority at hs
  cases hb : r.bracket with
  | true =>
    rw [hb, if_pos rfl] at hshape hs
    obtain ⟨hcolon, port, hport, hrest⟩ := hshape
    refine ⟨r.scheme, hscheme, '[' :: r.name ++ [']'], ?_, port, r.tail, hport, h.tail, ?_⟩
    · rcases hname with heq | heq | heq | heq <;> rw [heq] at hcolon ⊢
      · exact absurd hcolon (by decide +kernel)
      · exact absurd hcolon (by decide +kernel)
      · decide +kernel
      · decide +kernel
    · rw [hs, hrest]
      simp only [List.append_assoc, List.cons_append, List.nil_append]
  | false =>
    have hbare := h.bare
    unfold closing at hbare
    rw [hb, if_neg Bool.false_ne_true] at hshape hs hbare
    refine ⟨r.scheme, hscheme, r.name, ?_, r.rest, r.tail, hshape, h.tail, hs⟩
    rcases hname with heq | heq | heq | heq <;> rw [heq] at hbare ⊢
    · decide +kernel
    · decide +kernel
    · exact absurd (by decide +kernel) hbare
    · exact absurd (by decide +kernel) hbare

/-- The grammar's origins are the texts with a tidy reading. -/
theorem origin_iff_tidy : Origin s ↔ ∃ r : Reading, r.Of s ∧ r.Tidy := by
  refine ⟨?_, fun ⟨_, h, htidy⟩ => origin_of_tidy h htidy⟩
  rintro ⟨scheme, hscheme, host, hhost, port, tail, hport, htail, hs⟩
  simp only [originHosts, List.mem_cons, List.not_mem_nil, or_false] at hhost
  rcases hhost with rfl | rfl | rfl | rfl
  · exact exists_tidy_bare hscheme (by decide +kernel) (by decide +kernel) hport htail hs
  · exact exists_tidy_bare hscheme (by decide +kernel) (by decide +kernel) hport htail hs
  · have hcolon : ':' ∈ "::1".toList := by decide +kernel
    exact exists_tidy_bracket hscheme (by decide +kernel) hcolon (by decide +kernel) hport htail hs
  · have hcolon : ':' ∈ "0:0:0:0:0:0:0:1".toList := by decide +kernel
    exact exists_tidy_bracket hscheme (by decide +kernel) hcolon (by decide +kernel) hport htail hs

theorem accepted_of_origin (h : Origin s) : isLoopbackOrigin s = true := by
  obtain ⟨r, hr, -⟩ := origin_iff_tidy.mp h
  exact hr.accepted

end Reading

/-! ## Where the check follows the grammar -/

/-- **The check accepts the loopback origins** and nothing else on exactly the texts of
which no reading is untidy: those that read as no host of this machine, and those whose
scheme is there and whose host is followed by its port and the tail alone. -/
theorem accepts_origins_iff (s : String) :
    (isLoopbackOrigin s = true ↔ Origin s) ↔ ∀ r : Reading, r.Of s → r.Tidy := by
  rw [Reading.accepted_iff, Reading.origin_iff_tidy]
  constructor
  · intro hagree r hr
    obtain ⟨r', hr', htidy⟩ := hagree.mp ⟨r, hr⟩
    rw [hr.unique hr']
    exact htidy
  · intro htidy
    exact ⟨fun ⟨r, hr⟩ => ⟨r, hr, htidy r hr⟩, fun ⟨r, hr, _⟩ => ⟨r, hr⟩⟩

/-- A name and a word before another site's name are read as this machine and a port. -/
theorem userinfo_passes :
    ¬ ∀ s, isLoopbackOrigin s = true ↔ Origin s := by
  intro h
  have haccepted : isLoopbackOrigin "http://localhost:x@evil.example" = true := by decide +kernel
  have hread : (⟨"http://".toList, false, "localhost".toList, ":x@evil.example".toList, []⟩ :
      Reading).Of "http://localhost:x@evil.example" :=
    ⟨by decide +kernel, .inr (by decide +kernel), by decide +kernel, by decide +kernel,
      .inr (by decide +kernel), by decide +kernel, .inl rfl⟩
  obtain ⟨r, hr, -, hshape⟩ := Reading.origin_iff_tidy.mp ((h _).mp haccepted)
  rw [hr.unique hread, if_neg Bool.false_ne_true] at hshape
  obtain hnil | ⟨digits, hdigits, -, hall⟩ := hshape
  · exact absurd hnil (by decide +kernel)
  · have hx : 'x' ∈ ':' :: digits := by
      rw [← hdigits]
      decide +kernel
    exact absurd (hall 'x' (List.mem_of_ne_of_mem (by decide) hx)) (by decide)

end Deployments
