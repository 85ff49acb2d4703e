import FeatureCensus.Proofs.Search.Pages
import Mathlib.Algebra.Order.Floor.Div

/-!
# Totals of a discovery

The totals that pages tell bound the number of requests: a page after which another one is
requested has an item and tells a total that has not been reached, so that a discovery whose totals
stay below a bound ends at a page no later than the bound.  From a server that cuts a list of
repositories into pages of the size that is asked for, as many pages are requested as the list has,
but at least one, and the whole list is found.

Main results:

- Theorem {lit}`Discovery.Outcomes.IsBounded.exists_isLast`: a discovery with bounded totals ends.
- Theorem {lit}`Discovery.consume_of_isBounded`: it requests no more pages than the bound.
- Theorem {lit}`Discovery.Serves.isLast`: the last page of a list that is cut into pages.
- Theorem {lit}`Discovery.consume_of_serves`: such a list is found in as many requests as it has
  pages.
-/

namespace FeatureCensus
namespace Discovery

variable {source : Source} {answers : Nat → PageAnswer} {count last : Nat}
  {s : Situation (List Found)}

/-! ## Ends of consumptions -/

/-- The consumption of a discovery ends with its last page, if that is answered. -/
theorem run_consume_of_isLast (hlast : (outcomes source answers).IsLast last)
    (hcount : last ≤ count) (h : s.world.answers = (List.range' 1 count).map answers) :
    ∃ t, Consumes source (List.range' 1 last) ((outcomes source answers).foundUpTo last) s t ∧
      (consume source).run s = match outcomes source answers last with
        | .ok _ => .ok () t
        | .error failure => .error (Failure.ofPage source.queryText last failure) t := by
  have hconsume : (consume source).run s =
      (pursue source collect (steps source s.world.answers)).run s := rfl
  rw [hconsume, h, steps_of_isLast source answers hlast hcount]
  exact pursue_stepsUpTo_of_isLast source hlast s

/-- The consumption of a discovery that no answered page ends fails with the next request. -/
theorem run_consume_of_not_ends
    (hgoesOn : ∀ page, 0 < page → page ≤ count → ¬ (outcomes source answers).Ends page)
    (h : s.world.answers = (List.range' 1 count).map answers) :
    ∃ t failure, Consumes source (List.range' 1 (count + 1))
        ((outcomes source answers).foundUpTo count) s t ∧
      (consume source).run s = .error failure t := by
  have hconsume : (consume source).run s =
      (pursue source collect (steps source s.world.answers)).run s := rfl
  rw [hconsume, h, steps_of_not_ends source answers hgoesOn]
  obtain ⟨t, hconsumes, hrun⟩ := pursue_stepsUpTo_of_not_ends source hgoesOn
    (.fault (.unreachable .request noMorePages)) s
  exact ⟨t, _, hconsumes, hrun⟩

/-! ## Pages by hand -/

/-- The body of an answer that lists repositories of one owner, by their names, with a total. -/
def bodyWith (total : Int) (names : List String) : String :=
  "\x7b\"total_count\":" ++ toString total ++ ",\"items\":[" ++
    ",".intercalate (names.map fun name => "\x7b\"full_name\":\"o/" ++ name ++
      "\",\"clone_url\":\"" ++ name ++ "\"\x7d") ++ "]\x7d"

/-- The repositories that such a body lists. -/
def listedBy (names : List String) : List Listed :=
  names.map fun name => ⟨.text ("o/" ++ name), .text name⟩

/-- The name and the address of a repository, where both are texts. -/
def textsOf : Listed → Option (String × String)
  | ⟨.text fullName, .text cloneUrl⟩ => some (fullName, cloneUrl)
  | _ => none

theorem eq_of_textsOf {item : Listed} {fullName cloneUrl : String}
    (h : textsOf item = some (fullName, cloneUrl)) : item = ⟨.text fullName, .text cloneUrl⟩ := by
  unfold textsOf at h
  split at h
  · cases h
    rfl
  · cases h

/-- Whether an outcome is the page of such a body. -/
def isPageOf (total : Int) (names : List String) : Except PageFault Page → Bool
  | .ok result => result.total == total &&
      result.items.map textsOf == names.map fun name => some ("o/" ++ name, name)
  | .error _ => false

theorem eq_of_isPageOf {total : Int} {names : List String} {outcome : Except PageFault Page}
    (h : isPageOf total names outcome = true) : outcome = .ok ⟨total, listedBy names⟩ := by
  have hlisted : ∀ {items : List Listed} {names : List String},
      items.map textsOf = (names.map fun name => some ("o/" ++ name, name)) →
        items = listedBy names := by
    intro items names hitems
    induction items generalizing names with
    | nil => rw [List.map_eq_nil_iff.1 hitems.symm]; rfl
    | cons item rest ih =>
      cases names with
      | nil => cases hitems
      | cons name more =>
        obtain ⟨hitem, hrest⟩ := List.cons.inj hitems
        rw [eq_of_textsOf hitem, ih hrest]
        rfl
  cases outcome with
  | error failure => cases h
  | ok result =>
    obtain ⟨told, items⟩ := result
    rw [isPageOf, Bool.and_eq_true, beq_iff_eq, beq_iff_eq] at h
    have htotal : told = total := h.1
    have hitems : items = listedBy names := hlisted h.2
    rw [htotal, hitems]

/-- An answer with such a body is its page, whatever was asked for. -/
theorem ofAnswer_bodyWith {source : Source} (hreading : source.reading = {}) {total : Int}
    {names : List String} (h : isPageOf total names (Page.ofBody {} (bodyWith total names)) = true)
    (page : Nat) :
    Page.ofAnswer source page (.response (some 200) "OK" (bodyWith total names)) =
      .ok ⟨total, listedBy names⟩ := by
  have hbody : Page.ofResponse source.reading (source.pageAddress page) (some 200) "OK"
      (bodyWith total names) = .ok ⟨total, listedBy names⟩ := by
    rw [hreading]
    exact eq_of_isPageOf h
  rw [Page.ofAnswer, hbody]
  rfl

/-! ## Bounded totals -/

namespace Outcomes

variable {outcomes : Outcomes} {bound : Int}

/-- Whether no page tells a total beyond a bound. -/
def IsBounded (outcomes : Outcomes) (bound : Int) : Prop :=
  ∀ page result, 0 < page → outcomes page = .ok result → result.total ≤ bound

/-- Each page after which another one is requested has an item. -/
theorem le_countUpTo {page : Nat}
    (h : ∀ earlier, 0 < earlier → earlier ≤ page → ¬ outcomes.Ends earlier) :
    page ≤ outcomes.countUpTo page := by
  induction page with
  | zero => exact Nat.zero_le _
  | succ page ih =>
    have hbefore := ih fun earlier hpos hle => h earlier hpos (by omega)
    have hgoesOn := h (page + 1) (by omega) (Nat.le_refl _)
    obtain ⟨result, hresult⟩ := outcomes.exists_eq_ok hgoesOn
    rw [Ends, hresult, not_or] at hgoesOn
    have hitems : 0 < (outcomes.items (page + 1)).length := by
      rw [items, hresult]
      exact List.length_pos_iff.2 hgoesOn.1
    rw [countUpTo]
    omega

/-- A discovery that goes on after a page is told a total beyond the number of that page. -/
theorem IsBounded.lt_of_not_ends {page : Nat} (hbound : outcomes.IsBounded bound) (hpos : 0 < page)
    (h : ∀ earlier, 0 < earlier → earlier ≤ page → ¬ outcomes.Ends earlier) :
    (page : Int) < bound := by
  have hgoesOn := h page hpos (Nat.le_refl _)
  obtain ⟨result, hresult⟩ := outcomes.exists_eq_ok hgoesOn
  rw [Ends, hresult, not_or] at hgoesOn
  have htotal := hbound page result hpos hresult
  have hcount := le_countUpTo h
  omega

/-- A discovery with bounded totals has a last page, which is no later than the bound, or the first
one. -/
theorem IsBounded.exists_isLast (hbound : outcomes.IsBounded bound) :
    ∃ last ≤ max 1 bound.toNat, outcomes.IsLast last := by
  have hends : ∃ page, 0 < page ∧ page ≤ max 1 bound.toNat ∧ outcomes.Ends page := by
    by_contra hnone
    push Not at hnone
    have hlt : ((max 1 bound.toNat : Nat) : Int) < bound :=
      hbound.lt_of_not_ends (by omega) fun earlier hpos hle => hnone earlier hpos hle
    omega
  have hfirst := Nat.find_spec hends
  refine ⟨Nat.find hends, hfirst.2.1, ⟨hfirst.1, hfirst.2.2, fun page hpos hlt hend => ?_⟩⟩
  exact Nat.find_min hends hlt ⟨hpos, Nat.le_trans (Nat.le_of_lt hlt) hfirst.2.1, hend⟩

end Outcomes

/-- A discovery with bounded totals comes to an end: there is a last page, no later than the bound,
or the first one.  However many of the answers are there, the consumption makes no more requests,
and all of those up to the last page where that is answered. -/
theorem consume_of_isBounded {bound : Int}
    (hbound : (outcomes source answers).IsBounded bound) :
    ∃ last ≤ max 1 bound.toNat, (outcomes source answers).IsLast last ∧
      ∀ count (s : Situation (List Found)),
        s.world.answers = (List.range' 1 count).map answers →
        ∃ requests ≤ last, ∃ t, (last ≤ count → requests = last) ∧
          Consumes source (List.range' 1 requests)
            ((outcomes source answers).foundUpTo (min last count)) s t ∧
          ((consume source).run s = .ok () t ∨
            ∃ failure, (consume source).run s = .error failure t) := by
  obtain ⟨last, hle, hlast⟩ := hbound.exists_isLast
  refine ⟨last, hle, hlast, fun count s h => ?_⟩
  by_cases hcount : last ≤ count
  · obtain ⟨t, hconsumes, hrun⟩ := run_consume_of_isLast hlast hcount h
    rw [← Nat.min_eq_left hcount] at hconsumes
    refine ⟨_, Nat.min_le_left last count, t, Nat.min_eq_left, hconsumes, ?_⟩
    cases houtcome : outcomes source answers last with
    | ok result => exact .inl (by rw [hrun, houtcome])
    | error failure => exact .inr ⟨_, by rw [hrun, houtcome]⟩
  · have hgoesOn : ∀ page, 0 < page → page ≤ count → ¬ (outcomes source answers).Ends page :=
      fun page hpos hpage => hlast.not_ends page hpos (by omega)
    obtain ⟨t, failure, hconsumes, hrun⟩ := run_consume_of_not_ends hgoesOn h
    have hmin : min last count = count := Nat.min_eq_right (by omega)
    rw [hmin]
    exact ⟨count + 1, by omega, t, fun hanswered => absurd hanswered hcount, hconsumes,
      .inr ⟨failure, hrun⟩⟩

/-- Answers with pages of one repository each, of which the second one takes back what the first
one has told. -/
def dwindling : Nat → PageAnswer
  | 1 => .response (some 200) "OK" (bodyWith 3 ["a"])
  | 2 => .response (some 200) "OK" (bodyWith 2 ["b"])
  | _ => .unreachable .request "timeout"

/-- The second page ends the discovery, one earlier than the bound. -/
theorem consume_of_isBounded_dwindling :
    (outcomes {} dwindling).IsBounded 3 ∧
      ∃ t, Consumes {} [1, 2] ((outcomes {} dwindling).foundUpTo 2)
          ⟨{ answers := (List.range' 1 5).map dwindling }, []⟩ t ∧
        t.own.map (fun repository => (repository.index, repository.total)) = [(1, 3), (2, 2)] := by
  have hfirst : outcomes {} dwindling 1 = .ok ⟨3, listedBy ["a"]⟩ :=
    ofAnswer_bodyWith rfl (by decide +kernel) _
  have hsecond : outcomes {} dwindling 2 = .ok ⟨2, listedBy ["b"]⟩ :=
    ofAnswer_bodyWith rfl (by decide +kernel) _
  have hbound : (outcomes {} dwindling).IsBounded 3 := by
    intro page result hpos hresult
    by_cases hone : page = 1
    · rw [hone, hfirst] at hresult
      cases hresult
      decide
    · by_cases htwo : page = 2
      · rw [htwo, hsecond] at hresult
        cases hresult
        decide
      · obtain ⟨rest, rfl⟩ := Nat.exists_eq_add_of_le' (show 3 ≤ page by omega)
        cases hresult
  have hcounted : (outcomes {} dwindling).countUpTo 1 = 1 ∧
      (outcomes {} dwindling).countUpTo 2 = 2 := by
    simp [Outcomes.countUpTo, Outcomes.items, hfirst, hsecond, listedBy]
  obtain ⟨last, -, hlast, hruns⟩ := consume_of_isBounded hbound
  have hends : (outcomes {} dwindling).Ends 2 := by
    rw [Outcomes.Ends, hsecond, hcounted.2]
    exact .inr (Int.le_refl 2)
  have hgoesOn : ¬ (outcomes {} dwindling).Ends 1 := by
    rw [Outcomes.Ends, hfirst, hcounted.1]
    simp [listedBy]
  have htwo : last = 2 := by
    have hpos := hlast.pos
    have hle : last ≤ 2 := Nat.le_of_not_lt fun hlt => hlast.not_ends 2 (by decide) hlt hends
    have hne : last ≠ 1 := fun hone => hgoesOn (hone ▸ hlast.ends)
    omega
  subst htwo
  obtain ⟨requests, -, t, hall, hconsumes, -⟩ := hruns 5
    ⟨{ answers := (List.range' 1 5).map dwindling }, []⟩ rfl
  have hpages : List.range' 1 2 = [1, 2] := rfl
  rw [hall (by decide), Nat.min_eq_left (by decide), hpages] at hconsumes
  refine ⟨hbound, t, hconsumes, ?_⟩
  rw [hconsumes.own]
  simp [Outcomes.foundUpTo, Outcomes.offers, hfirst, hsecond, listedBy, List.range'_succ]

/-! ## Lists in pages -/

/-- Whether a server answers requests for pages with a list of repositories that it cuts into pages
of the size that a source asks for, each with the number of them all. -/
structure Serves (source : Source) (items : List Listed) (size : Nat)
    (answers : Nat → PageAnswer) : Prop where
  size_pos : 0 < size
  asked : source.perPage? = some (size : Int)
  page : ∀ page, outcomes source answers (page + 1) =
    .ok ⟨items.length, (items.drop (page * size)).take size⟩

namespace Serves

variable {items : List Listed} {size : Nat}

/-- Pages hold the beginning of the list. -/
theorem countUpTo_eq (h : Serves source items size answers) (page : Nat) :
    (outcomes source answers).countUpTo page = min (page * size) items.length := by
  induction page with
  | zero => simp [Outcomes.countUpTo]
  | succ page ih =>
    rw [Outcomes.countUpTo, ih, Outcomes.items, h.page, List.length_take, List.length_drop,
      Nat.succ_mul]
    omega

/-- A page is no end of the discovery as long as there are items behind it. -/
theorem ends_iff (h : Serves source items size answers) (page : Nat) :
    (outcomes source answers).Ends (page + 1) ↔ items.length ≤ (page + 1) * size := by
  have hsize := h.size_pos
  rw [Outcomes.Ends, h.page, h.countUpTo_eq]
  simp only [List.take_eq_nil_iff, List.drop_eq_nil_iff, Int.ofNat_le, Nat.succ_mul]
  omega

/-- The last page is the one with the last item, or the first one of an empty list. -/
theorem isLast (h : Serves source items size answers) :
    (outcomes source answers).IsLast (max 1 (items.length ⌈/⌉ size)) := by
  have hle : ∀ pages, items.length ⌈/⌉ size ≤ pages ↔ items.length ≤ pages * size := by
    intro pages
    rw [ceilDiv_le_iff_le_mul h.size_pos, Nat.mul_comm]
  refine ⟨by omega, ?_, fun page hpos hbefore hends => ?_⟩
  · obtain ⟨page, hpage⟩ := Nat.exists_eq_add_one.2
      (show 0 < max 1 (items.length ⌈/⌉ size) by omega)
    rw [hpage, h.ends_iff, ← hle]
    omega
  · obtain ⟨earlier, rfl⟩ := Nat.exists_eq_add_one.2 hpos
    rw [h.ends_iff, ← hle] at hends
    omega

theorem flatMap_offers (h : Serves source items size answers) (pages : Nat) :
    (List.range' 1 pages).flatMap (outcomes source answers).offers =
      (items.take (pages * size)).map fun item => (item, (items.length : Int)) := by
  induction pages with
  | zero => simp
  | succ page ih =>
    rw [List.range'_1_concat, List.flatMap_append, List.flatMap_singleton, ih, Nat.add_comm 1 page,
      Outcomes.offers, h.page, Nat.succ_mul, List.take_add, List.map_append]

/-- The pages up to the last one hold the whole list, in its order. -/
theorem foundUpTo_eq (h : Serves source items size answers) :
    (outcomes source answers).foundUpTo (max 1 (items.length ⌈/⌉ size)) =
      (items.zipIdx 1).map fun (item, index) => ⟨item, index, items.length⟩ := by
  have hall : items.take (max 1 (items.length ⌈/⌉ size) * size) = items := by
    refine List.take_of_length_le ?_
    rw [Nat.mul_comm, ← ceilDiv_le_iff_le_mul h.size_pos]
    omega
  rw [Outcomes.foundUpTo, h.flatMap_offers, hall, List.zipIdx_map, List.map_map]
  rfl

end Serves

/-- From a server that cuts a list into pages of the size that is asked for, as many pages are
requested as the list has, but at least one, and nothing else; the whole list is found, each
repository once, in its order, counted from one and with the number of them all. -/
theorem consume_of_serves {items : List Listed} {size : Nat}
    (hserves : Serves source items size answers) (hcount : max 1 (items.length ⌈/⌉ size) ≤ count)
    (h : s.world.answers = (List.range' 1 count).map answers) :
    ∃ t, (consume source).run s = .ok () t ∧
      Consumes source (List.range' 1 (max 1 (items.length ⌈/⌉ size)))
        ((items.zipIdx 1).map fun (item, index) => ⟨item, index, items.length⟩) s t := by
  obtain ⟨t, hconsumes, hrun⟩ := run_consume_of_isLast hserves.isLast hcount h
  obtain ⟨page, hpage⟩ := Nat.exists_eq_add_one.2
    (show 0 < max 1 (items.length ⌈/⌉ size) by omega)
  have houtcome := hserves.page page
  rw [hserves.foundUpTo_eq] at hconsumes
  rw [hpage, houtcome] at hrun
  exact ⟨t, hrun, hconsumes⟩

/-- Answers that serve three repositories in pages of two. -/
def threeInPages : Nat → PageAnswer
  | 1 => .response (some 200) "OK" (bodyWith 3 ["a", "b"])
  | 2 => .response (some 200) "OK" (bodyWith 3 ["c"])
  | _ => .response (some 200) "OK" (bodyWith 3 [])

/-- They are found in two requests, whether or not more would be answered. -/
theorem consume_of_serves_threeInPages :
    let source : Source := { perPage? := some 2 }
    Serves source (listedBy ["a", "b", "c"]) 2 threeInPages ∧
      ∃ t, (consume source).run ⟨{ answers := (List.range' 1 4).map threeInPages }, []⟩ = .ok () t ∧
        Consumes source [1, 2]
          [⟨⟨.text "o/a", .text "a"⟩, 1, 3⟩, ⟨⟨.text "o/b", .text "b"⟩, 2, 3⟩,
            ⟨⟨.text "o/c", .text "c"⟩, 3, 3⟩]
          ⟨{ answers := (List.range' 1 4).map threeInPages }, []⟩ t := by
  intro source
  have hserves : Serves source (listedBy ["a", "b", "c"]) 2 threeInPages := by
    refine ⟨by decide, rfl, fun page => ?_⟩
    match page with
    | 0 => exact ofAnswer_bodyWith rfl (by decide +kernel) _
    | 1 => exact ofAnswer_bodyWith rfl (by decide +kernel) _
    | page + 2 =>
      have hnone : (listedBy ["a", "b", "c"]).drop ((page + 2) * 2) = [] :=
        List.drop_eq_nil_of_le (by simp [listedBy]; omega)
      rw [hnone]
      exact ofAnswer_bodyWith rfl (by decide +kernel) _
  exact ⟨hserves, consume_of_serves hserves (by decide) rfl⟩

end Discovery
end FeatureCensus
