import OpenMux.Power.Lemmas.Relay

/-!
# Each relay gets its own answer

As long as relays on one session do not overlap.
-/

namespace OpenMux.Power

open Py Federation Origin

theorem Node.Sound.fresh (keyOf : Text → Text) (proxies : Dict Text Proxy) : ({ proxies := proxies } : Node).Sound keyOf where
  held := nofun
  asked := nofun
  replied := nofun
  answered := nofun

/-- In a run in which no relay starts on a session that another one still has or may be answered on, each relay that returns
an answer returns that to its own frame, and nothing that is pending is discarded. -/
theorem Node.relays_matched {keyOf : Text → Text} {proxies : Dict Text Proxy} {as : List Act} {n : Node}
    (hclear : Transition.Along (Node.step keyOf) (Node.Clear keyOf) { proxies := proxies } as)
    (hrun : Transition.exec (Node.step keyOf) { proxies := proxies } as = some n) :
    n.Matched ∧ ∀ a n', n.Clear keyOf a → n.step keyOf a = some n' → n.Keeps n' := by
  have hsound : n.Sound keyOf := Transition.exec_invariant (fun _ _ _ hs hc hstep => hs.step hc hstep)
    (Node.Sound.fresh keyOf proxies) hclear hrun
  exact ⟨fun i c a hi hc => hsound.answered i c hi a (.inr hc), fun _ _ hc hstep => hsound.keeps hc hstep⟩

/-- The proxy of a console whose server feeds from two outlets. -/
def twoOutlets : Dict Text Proxy := (∅ : Dict Text Proxy).set ['t'] {
  connectionId := ['p']
  power := ["o::r.1".toList, "o::r.2".toList]
  clientSessions := (∅ : Dict Text Int).set ['a'] 1 }

/-- `ann` switches the first outlet on. -/
def firstOn : Act := .relay ['t'] "r.1".toList true [] (some ['a']) (some ['l'])

/-- `ann` switches the second outlet off. -/
def secondOff : Act := .relay ['t'] "r.2".toList false [] (some ['a']) (some ['l'])

/-- The second switch waits for the first. -/
def inTurn : List Act :=
  [firstOn, .sent 0 true, .answer ['l'] (some ⟨true, none, some true⟩), .deliver ['l'], .wake 0, secondOff]

theorem Node.relays_matched_in_turn : ∃ n, Transition.exec (Node.step fun _ => ['p']) { proxies := twoOutlets } inTurn = some n ∧
    n.Matched ∧ ∀ a n', n.Clear (fun _ => ['p']) a → n.step (fun _ => ['p']) a = some n' → n.Keeps n' := by
  obtain ⟨n, hn⟩ := Option.isSome_iff_exists.mp (by decide : (Transition.exec (Node.step fun _ => ['p'])
    { proxies := twoOutlets } inTurn).isSome)
  exact ⟨n, hn, Node.relays_matched (by decide) hn⟩

/-- The answer to the first switch comes while both wait, and the second takes it. -/
def overtaken : List Act :=
  [firstOn, secondOff, .answer ['l'] (some ⟨true, none, some true⟩), .deliver ['l'], .sent 1 true]

/-- The first switch times out while both wait. -/
def expired : List Act := [firstOn, secondOff, .sent 0 true, .sent 1 true, .expire 0]

/-- Of two relays on one session the second returns the answer to the first, or what is pending for it is discarded when the
first times out. -/
theorem Node.relays_matched_fails :
    (∃ n, Transition.exec (Node.step fun _ => ['p']) { proxies := twoOutlets } overtaken = some n ∧ ¬ n.Matched) ∧
    ∃ n, Transition.exec (Node.step fun _ => ['p']) { proxies := twoOutlets } expired = some n ∧
      ∃ n', n.step (fun _ => ['p']) (.wake 0) = some n' ∧ ¬ n.Keeps n' := by
  constructor
  · have hend : (Transition.exec (Node.step fun _ => ['p']) { proxies := twoOutlets } overtaken).map
        (fun n => (n.answers, n.calls[1]?)) = some ([(0, ⟨true, none, some true⟩)],
          some ⟨some (['p'], 1), .resolved (.switched (some true)), .returned (.answered (.switched (some true)))⟩) := by decide
    obtain ⟨n, hn, hpair⟩ := Option.map_eq_some_iff.mp hend
    rw [Prod.mk.injEq] at hpair
    refine ⟨n, hn, fun h => ?_⟩
    obtain ⟨body, hb, -⟩ := h 1 _ _ hpair.2 rfl
    rw [hpair.1] at hb
    simp at hb
  · have hend : (Transition.exec (Node.step fun _ => ['p']) { proxies := twoOutlets } expired).map
        (fun n => (n.pending.get? (['p'], 1), (n.step (fun _ => ['p']) (.wake 0)).map fun n' =>
          (n'.pending.get? (['p'], 1), n'.calls[1]?))) =
        some (some 1, some (none, some ⟨some (['p'], 1), .waiting, .waiting⟩)) := by decide
    obtain ⟨n, hn, hpair⟩ := Option.map_eq_some_iff.mp hend
    rw [Prod.mk.injEq] at hpair
    obtain ⟨n', hn', hpair'⟩ := Option.map_eq_some_iff.mp hpair.2
    rw [Prod.mk.injEq] at hpair'
    refine ⟨n, hn, n', hn', fun h => ?_⟩
    rcases h _ 1 hpair.1 with hkept | ⟨c, hc, hdone⟩
    · rw [hpair'.1] at hkept
      cases hkept
    · rw [hpair'.2] at hc
      cases hc
      revert hdone
      decide

end OpenMux.Power
