import FeatureCensus.Rules.Members

/-!
# The order of members

Entries and members are not mixed if the members of the first body are entries to begin with and no
entries after that.  Only the tags of the members count, in their order: neither what stands between
them nor what they hold, and nothing outside the first body.

Main results:

- Theorem {lit}`mixedAfter_true_eq_false_iff`: no entry follows another member if the entries come
  first.
- Theorem {lit}`AlikeInMembers.map_tag_filter`: children that are alike in members have members
  with the same tags.
- Theorem {lit}`hasEntriesAndMembersMixed_by_order`: what mixing depends on, and what it does not.
-/

namespace FeatureCensus

open Syntax

variable {members : Forest Element} {member : ElementTree}

/-! ## Entries before other members -/

/-- That members are entries to begin with and no entries after that. -/
def EntriesComeFirst (members : Forest Element) : Prop :=
  ∃ entries others, members = entries ++ others ∧
    (∀ member ∈ entries, member.value.isOf .enumEntry = true) ∧
    ∀ member ∈ others, member.value.isOf .enumEntry = false

/-- Where no members are left, the entries have come first. -/
theorem entriesComeFirst_nil : EntriesComeFirst [] := by
  refine ⟨[], [], rfl, ?_, ?_⟩ <;> simp

/-- An entry in front leaves the order to the other members. -/
theorem entriesComeFirst_cons_of_entry (h : member.value.isOf .enumEntry = true) :
    EntriesComeFirst (member :: members) ↔ EntriesComeFirst members := by
  constructor
  · rintro ⟨entries, others, hsplit, hentries, hothers⟩
    cases entries with
    | nil =>
      -- The entry would have to be one of the others.
      rw [List.nil_append] at hsplit
      have hfalse := hothers member (hsplit ▸ List.mem_cons_self)
      rw [h] at hfalse
      cases hfalse
    | cons first entries =>
      rw [List.cons_append, List.cons.injEq] at hsplit
      refine ⟨entries, others, hsplit.2, ?_, hothers⟩
      intro entry hentry
      exact hentries entry (List.mem_cons_of_mem first hentry)
  · rintro ⟨entries, others, rfl, hentries, hothers⟩
    exact ⟨member :: entries, others, rfl, List.forall_mem_cons.2 ⟨h, hentries⟩, hothers⟩

/-- Behind another member in front there must be no entries. -/
theorem entriesComeFirst_cons_of_other (h : member.value.isOf .enumEntry = false) :
    EntriesComeFirst (member :: members) ↔
      ∀ other ∈ members, other.value.isOf .enumEntry = false := by
  constructor
  · rintro ⟨entries, others, hsplit, hentries, hothers⟩
    cases entries with
    | nil =>
      rw [List.nil_append] at hsplit
      intro other hother
      exact hothers other (hsplit ▸ List.mem_cons_of_mem member hother)
    | cons first entries =>
      rw [List.cons_append, List.cons.injEq] at hsplit
      have htrue := hentries first List.mem_cons_self
      rw [← hsplit.1, h] at htrue
      cases htrue
  · intro hothers
    exact ⟨[], member :: members, rfl, by simp, List.forall_mem_cons.2 ⟨h, hothers⟩⟩

/-! ## The scan -/

/-- Behind another member every entry is mixed in. -/
theorem mixedAfter_false_eq_false_iff :
    mixedAfter false members = false ↔
      ∀ member ∈ members, member.value.isOf .enumEntry = false := by
  induction members with
  | nil => simp [mixedAfter]
  | cons member rest ih =>
    rw [mixedAfter, List.forall_mem_cons]
    cases hentry : member.value.isOf .enumEntry with
    | true => simp
    | false => simpa using ih

/-- No entry follows another member if the entries come first. -/
theorem mixedAfter_true_eq_false_iff :
    mixedAfter true members = false ↔ EntriesComeFirst members := by
  induction members with
  | nil => simpa [mixedAfter] using entriesComeFirst_nil
  | cons member rest ih =>
    rw [mixedAfter]
    cases hentry : member.value.isOf .enumEntry with
    | true =>
      rw [entriesComeFirst_cons_of_entry hentry, ← ih]
      simp
    | false =>
      rw [entriesComeFirst_cons_of_other hentry, ← mixedAfter_false_eq_false_iff]
      simp

/-- The scan looks at nothing but the tags. -/
theorem mixedAfter_congr {first second : Forest Element}
    (h : second.map (·.value.tag) = first.map (·.value.tag)) (insideEntries : Bool) :
    mixedAfter insideEntries second = mixedAfter insideEntries first := by
  induction first generalizing second insideEntries with
  | nil =>
    rw [List.map_nil, List.map_eq_nil_iff] at h
    rw [h]
  | cons member rest ih =>
    obtain ⟨other, others, rfl, htag, hrest⟩ := List.map_eq_cons_iff.1 h
    have hentry : other.value.isOf .enumEntry = member.value.isOf .enumEntry := by
      rw [Element.isOf, Element.isOf, htag]
    rw [mixedAfter, mixedAfter, hentry, ih hrest, ih hrest]

/-! ## Children that are alike in members -/

/-- Being a member is a matter of the tag. -/
theorem isMember_congr {e other : Element} (h : other.tag = e.tag) :
    isMember other = isMember e := by
  have hkind : other.isOf = e.isOf := by
    funext kind
    rw [Element.isOf, Element.isOf, h]
  rw [isMember, isMember, hkind]

/-- A comment is no member. -/
theorem isMember_comment (attributes : List (String × String)) :
    isMember ⟨.comment, attributes⟩ = false := by
  simp [isMember, Element.isOf, Tag.name?]

/-- That children become others when some that are no members are put in or taken out, and when
some change without a change of their tags. -/
inductive AlikeInMembers : Forest Element → Forest Element → Prop where
  | nil : AlikeInMembers [] []
  | insert {extra : ElementTree} {first second : Forest Element}
      (hextra : isMember extra.value = false) (hrest : AlikeInMembers first second) :
      AlikeInMembers first (extra :: second)
  | remove {extra : ElementTree} {first second : Forest Element}
      (hextra : isMember extra.value = false) (hrest : AlikeInMembers first second) :
      AlikeInMembers (extra :: first) second
  | change {child other : ElementTree} {first second : Forest Element}
      (htag : other.value.tag = child.value.tag) (hrest : AlikeInMembers first second) :
      AlikeInMembers (child :: first) (other :: second)

/-- Children that are alike in members have members with the same tags. -/
theorem AlikeInMembers.map_tag_filter {first second : Forest Element}
    (h : AlikeInMembers first second) :
    (second.filter (isMember ·.value)).map (·.value.tag) =
      (first.filter (isMember ·.value)).map (·.value.tag) := by
  induction h with
  | nil => rfl
  | insert hextra _ ih => rw [List.filter_cons_of_neg (by simp [hextra]), ih]
  | remove hextra _ ih => rw [List.filter_cons_of_neg (by simp [hextra]), ih]
  | change htag _ ih =>
    rw [List.filter_cons, List.filter_cons, isMember_congr htag]
    split
    · rw [List.map_cons, List.map_cons, htag, ih]
    · exact ih

/-! ## The first body -/

/-- That a body is the first one among children. -/
def IsFirstBody (body : ElementTree) (children : Forest Element) : Prop :=
  ∃ before after, children = before ++ body :: after ∧ body.value.isOf .body = true ∧
    ∀ child ∈ before, child.value.isOf .body = false

variable {owner body : ElementTree}

/-- The search for a body comes upon the first one. -/
theorem find?_body_eq_some_iff :
    (owner.children.find? fun child => child.value.isOf .body) = some body ↔
      IsFirstBody body owner.children := by
  rw [List.find?_eq_some_iff_append]
  constructor
  · rintro ⟨hbody, before, after, hsplit, hbefore⟩
    refine ⟨before, after, hsplit, hbody, ?_⟩
    intro child hchild
    simpa using hbefore child hchild
  · rintro ⟨before, after, hsplit, hbody, hbefore⟩
    refine ⟨hbody, before, after, hsplit, ?_⟩
    intro child hchild
    simp [hbefore child hchild]

/-- The members are those of the first body. -/
theorem declarations_of_isFirstBody (h : IsFirstBody body owner.children) :
    declarations owner = body.children.filter (isMember ·.value) := by
  rw [declarations, find?_body_eq_some_iff.2 h]

/-- Without a body there are no members. -/
theorem declarations_of_no_body (h : ∀ body, ¬ IsFirstBody body owner.children) :
    declarations owner = [] := by
  unfold declarations
  split
  · rfl
  · rename_i body hbody
    exact absurd (find?_body_eq_some_iff.1 hbody) (h body)

/-- There is only one first body. -/
theorem IsFirstBody.eq {other : ElementTree} (h : IsFirstBody body owner.children)
    (hother : IsFirstBody other owner.children) : other = body := by
  have hfound := find?_body_eq_some_iff.2 hother
  rw [find?_body_eq_some_iff.2 h] at hfound
  exact (Option.some.inj hfound).symm

/-- Entries and members are not mixed if, in the first body, the entries come before all other
members.  Elements whose first bodies are alike in members agree, whatever else they hold. -/
theorem hasEntriesAndMembersMixed_by_order (owner : ElementTree) :
    (hasEntriesAndMembersMixed owner = false ↔
        ∀ body, IsFirstBody body owner.children →
          EntriesComeFirst (body.children.filter (isMember ·.value))) ∧
      ∀ body other otherBody, IsFirstBody body owner.children →
        IsFirstBody otherBody other.children →
        AlikeInMembers body.children otherBody.children →
        hasEntriesAndMembersMixed other = hasEntriesAndMembersMixed owner := by
  constructor
  · rw [hasEntriesAndMembersMixed, mixedAfter_true_eq_false_iff]
    by_cases hsome : ∃ body, IsFirstBody body owner.children
    · obtain ⟨body, hbody⟩ := hsome
      rw [declarations_of_isFirstBody hbody]
      constructor
      · intro hfirst other hother
        rw [hbody.eq hother]
        exact hfirst
      · intro hall
        exact hall body hbody
    · have hnone : ∀ body, ¬ IsFirstBody body owner.children := fun body hbody =>
        hsome ⟨body, hbody⟩
      rw [declarations_of_no_body hnone]
      constructor
      · intro _ body hbody
        exact absurd hbody (hnone body)
      · intro _
        exact entriesComeFirst_nil
  · intro body other otherBody hbody hother halike
    rw [hasEntriesAndMembersMixed, hasEntriesAndMembersMixed, declarations_of_isFirstBody hbody,
      declarations_of_isFirstBody hother]
    exact mixedAfter_congr halike.map_tag_filter true

/-! ## An enum with a late entry -/

/-- An element of a kind, without attributes. -/
def bareElement (kind : Kind) (children : Forest Element) : ElementTree :=
  .node ⟨.known kind, []⟩ children

/-- A body with an entry, a function and another entry. -/
def lateEntryBody : ElementTree :=
  bareElement .body [bareElement .enumEntry [], bareElement .function [], bareElement .enumEntry []]

/-- The same body with a comment in front and a plain node before the last entry, which has a body
of its own now. -/
def commentedBody : ElementTree :=
  bareElement .body [.node ⟨.comment, []⟩ [], bareElement .enumEntry [], bareElement .function [],
    bareElement .node [bareElement .enumEntry []],
    .node ⟨.known .enumEntry, [("body", "true")]⟩ [bareElement .body []]]

theorem alikeInMembers_commentedBody :
    AlikeInMembers lateEntryBody.children commentedBody.children :=
  .insert (isMember_comment []) (.change rfl (.change rfl (.insert rfl (.change rfl .nil))))

/-- The late entry stays mixed in with a comment and plain nodes around it, and before a further
body. -/
theorem hasEntriesAndMembersMixed_lateEntry :
    IsFirstBody lateEntryBody [lateEntryBody] ∧
      IsFirstBody commentedBody [bareElement .node [], commentedBody, bareElement .body []] ∧
      hasEntriesAndMembersMixed (bareElement .classDeclaration
        [bareElement .node [], commentedBody, bareElement .body []]) =
        hasEntriesAndMembersMixed (bareElement .classDeclaration [lateEntryBody]) := by
  have hfirst : IsFirstBody lateEntryBody [lateEntryBody] := ⟨[], [], rfl, rfl, by simp⟩
  have hsecond : IsFirstBody commentedBody
      [bareElement .node [], commentedBody, bareElement .body []] :=
    ⟨[bareElement .node []], [bareElement .body []], rfl, rfl, by simp [bareElement]⟩
  refine ⟨hfirst, hsecond, ?_⟩
  exact (hasEntriesAndMembersMixed_by_order (bareElement .classDeclaration [lateEntryBody])).2
    lateEntryBody _ commentedBody hfirst hsecond alikeInMembers_commentedBody

end FeatureCensus
