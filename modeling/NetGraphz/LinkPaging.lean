import Mathlib.Data.List.MinMax
import NetGraphz.GraphLinks

/-! Paging through the links by the largest id received. The query has no order of
its own, so that a full page may hold any of the links after the cursor, and the
largest id on it passes over those it does not hold. -/
namespace NetGraphz.LinkPaging
open GraphLinks

/-- The orders that the database gives its rows in, one for each request. -/
structure Orders where
  order : Nat → List LinkRow → List LinkRow
  complete : ∀ request rows, (order request rows).Perm rows

/-- The database with an unchanged graph, at a request. -/
def answering (graph : LinkedGraph) (orders : Orders) (request : Nat) : Neo4j where
  graph := graph
  order := orders.order request
  complete := orders.complete request

/-- The links that the stream of `GetAllLinks` shows; a refused limit ends it. -/
def page (neo4j : Neo4j) (req : LinksAllRequest) : List LinkRow :=
  if req.nTake < 0 then [] else neo4j.linksFrom req.lastId.toInt64 req.nTake.toInt.toNat

theorem getAllLinks_shows_page (neo4j : Neo4j) (req : LinksAllRequest) :
    (getAllLinks neo4j req).1 = (page neo4j req).map fun row => linkToRpc (readLinkRow row) := by
  unfold getAllLinks getAllLinksFrom page
  by_cases refused : req.nTake < 0
  · simp [refused]
  · simp [refused]

/-- The `id` that is sent for a link. -/
def sentId (row : LinkRow) : Int := (linkToRpc (readLinkRow row)).id.toInt

/-- The largest id received. -/
def largest (lastId : Int) (received : List LinkRow) : Int :=
  received.foldl (fun lastId row => max lastId (sentId row)) lastId

/-- What the pages from a request on bring together, the first short one being the
last; `none` if it is not among the pages asked for. -/
def fetchAll (graph : LinkedGraph) (orders : Orders) (nTake : Int32) :
    (asked request : Nat) → (lastId : Int) → Option (List LinkRow)
  | 0, _, _ => none
  | asked + 1, request, lastId =>
    let links := page (answering graph orders request) ⟨Int32.ofInt lastId, nTake⟩
    if links.length < nTake.toInt.toNat then some links
    else (fetchAll graph orders nTake asked (request + 1) (largest lastId links)).map (links ++ ·)

/-- In whatever orders the rows come, every link is received once. -/
def ReceivesEveryLink (graph : LinkedGraph) (nTake : Int32) : Prop :=
  ∀ orders, ∃ asked received, fetchAll graph orders nTake asked 0 0 = some received ∧
    received.Perm graph.links

/-- The links fit on a page with room left, or fill it and have ids of 31 bits. -/
def OnePage (graph : LinkedGraph) (nTake : Int32) : Prop :=
  graph.links.length < nTake.toInt.toNat ∨
    graph.links.length = nTake.toInt.toNat ∧ ∀ row ∈ graph.links, row.id.toInt < 2 ^ 31

variable {graph : LinkedGraph} {orders : Orders} {nTake : Int32} {lastId : Int} {request : Nat}

theorem sentId_lt (row : LinkRow) : sentId row < 2 ^ 31 := Int32.toInt_lt _

/-- An id that fits is sent as it is. -/
theorem sentId_eq {row : LinkRow} (held : row ∈ graph.links) (fits : row.id.toInt < 2 ^ 31) :
    sentId row = row.id.toInt := by
  have natural := Int64.le_iff_toInt_le.mp (graph.linksNatural row held)
  rw [Int64.toInt_zero] at natural
  change row.id.toInt32.toInt = row.id.toInt
  rw [Int64.toInt_toInt32]
  exact Int.bmod_eq_of_le (by omega) (by omega)

theorem largest_ge (received : List LinkRow) (lastId : Int) :
    lastId ≤ largest lastId received ∧ ∀ row ∈ received, sentId row ≤ largest lastId received := by
  induction received generalizing lastId with
  | nil => exact ⟨Int.le_refl lastId, nofun⟩
  | cons row rest ih =>
    obtain ⟨start, later⟩ := ih (max lastId (sentId row))
    refine ⟨le_trans (le_max_left _ _) start, ?_⟩
    intro other held
    rcases List.mem_cons.mp held with rfl | after
    · exact le_trans (le_max_right _ _) start
    · exact later other after

theorem largest_lt (received : List LinkRow) (low : lastId < 2 ^ 31) :
    largest lastId received < 2 ^ 31 := by
  induction received generalizing lastId with
  | nil => exact low
  | cons row rest ih => exact ih (max_lt low (sentId_lt row))

/-- The links after a cursor. -/
def linksAfter (graph : LinkedGraph) (lastId : Int) : List LinkRow :=
  graph.links.filter fun row => lastId < row.id.toInt

/-- A page is cut from the links after the cursor, in the order of the request. -/
theorem page_eq (atLeastOne : 1 ≤ nTake) (low : 0 ≤ lastId) (high : lastId < 2 ^ 31) :
    page (answering graph orders request) ⟨Int32.ofInt lastId, nTake⟩ =
      (orders.order request (linksAfter graph lastId)).take nTake.toInt.toNat := by
  have position : (Int32.ofInt lastId).toInt64.toInt = lastId := by
    rw [Int32.toInt_toInt64, Int32.toInt_ofInt_of_le (by omega) (by omega)]
  have accepted : ¬ nTake < 0 := by
    have positive := Int32.le_iff_toInt_le.mp atLeastOne
    rw [Int32.lt_iff_toInt_lt, Int32.toInt_zero]
    have one : (1 : Int32).toInt = 1 := rfl
    omega
  unfold page
  rw [if_neg accepted]
  unfold Neo4j.linksFrom answering linksAfter
  simp only [Int64.lt_iff_toInt_lt, position]

theorem limit_pos (atLeastOne : 1 ≤ nTake) : 0 < nTake.toInt.toNat := by
  have one := Int32.le_iff_toInt_le.mp atLeastOne
  have value : (1 : Int32).toInt = 1 := rfl
  omega

theorem linksAfter_zero (positive : ∀ row ∈ graph.links, 0 < row.id) :
    linksAfter graph 0 = graph.links := by
  apply List.filter_eq_self.mpr
  intro row held
  have above := Int64.lt_iff_toInt_lt.mp (positive row held)
  rw [Int64.toInt_zero] at above
  exact decide_eq_true above

/-! ## One page -/

theorem page_zero (atLeastOne : 1 ≤ nTake) (positive : ∀ row ∈ graph.links, 0 < row.id) :
    page (answering graph orders request) ⟨Int32.ofInt 0, nTake⟩ =
      (orders.order request graph.links).take nTake.toInt.toNat := by
  rw [page_eq atLeastOne (Int.le_refl 0) (by decide), linksAfter_zero positive]

/-- Links that fit on one page are received, in any order. -/
theorem received_of_fits (atLeastOne : 1 ≤ nTake) (positive : ∀ row ∈ graph.links, 0 < row.id)
    (fits : OnePage graph nTake) : ReceivesEveryLink graph nTake := by
  intro orders
  have perm := orders.complete 0 graph.links
  have few : graph.links.length ≤ nTake.toInt.toNat := fits.elim Nat.le_of_lt fun full => full.1.le
  have whole : page (answering graph orders 0) ⟨Int32.ofInt 0, nTake⟩ =
      orders.order 0 graph.links := by
    rw [page_zero atLeastOne positive]
    exact List.take_of_length_le (perm.length_eq ▸ few)
  rcases fits with room | ⟨full, small⟩
  · refine ⟨1, orders.order 0 graph.links, ?_, perm⟩
    rw [fetchAll, whole, if_pos (perm.length_eq ▸ room)]
  · -- the second page is empty, since the largest id sent is the largest there is
    obtain ⟨start, sent⟩ := largest_ge (orders.order 0 graph.links) 0
    have none : linksAfter graph (largest 0 (orders.order 0 graph.links)) = [] := by
      apply List.filter_eq_nil_iff.mpr
      intro row held
      have below := sent row (perm.mem_iff.mpr held)
      rw [sentId_eq held (small row held)] at below
      simpa using below
    have second : page (answering graph orders 1)
        ⟨Int32.ofInt (largest 0 (orders.order 0 graph.links)), nTake⟩ = [] := by
      rw [page_eq atLeastOne start (largest_lt _ (by decide)), none,
        (orders.complete 1 []).eq_nil, List.take_nil]
    refine ⟨2, orders.order 0 graph.links, ?_, perm⟩
    rw [fetchAll, whole, if_neg (by rw [perm.length_eq]; omega), fetchAll, second,
      if_pos (by simpa using limit_pos atLeastOne), Option.map_some, List.append_nil]

/-! ## Passing over links -/

/-- The order that puts one link first. -/
def putFirst (first : LinkRow) : Orders where
  order _ rows :=
    rows.filter (fun row => row.id = first.id) ++ rows.filter fun row => ¬ row.id = first.id
  complete _ rows := by
    have split := List.filter_append_perm (fun row : LinkRow => decide (row.id = first.id)) rows
    simpa only [decide_not] using split

/-- A page begins with the link that is put first, as long as the cursor is before it. -/
theorem page_begins {first : LinkRow} (atLeastOne : 1 ≤ nTake) (held : first ∈ graph.links)
    (low : 0 ≤ lastId) (high : lastId < 2 ^ 31) (before : lastId < first.id.toInt) :
    ∃ rest, page (answering graph (putFirst first) request) ⟨Int32.ofInt lastId, nTake⟩ =
      first :: rest := by
  have listed : first ∈ (linksAfter graph lastId).filter fun row => row.id = first.id :=
    List.mem_filter.mpr ⟨List.mem_filter.mpr ⟨held, decide_eq_true before⟩, by simp⟩
  have only : ∀ row ∈ (linksAfter graph lastId).filter (fun row => row.id = first.id),
      row = first := by
    intro row there
    obtain ⟨later, same⟩ := List.mem_filter.mp there
    exact List.inj_on_of_nodup_map graph.linksDistinct (List.mem_filter.mp later).1 held
      (of_decide_eq_true same)
  obtain ⟨limit, isLimit⟩ := Nat.exists_eq_add_of_lt (limit_pos atLeastOne)
  rw [Nat.zero_add] at isLimit
  rw [page_eq atLeastOne low high, isLimit]
  unfold putFirst
  dsimp only
  cases found : (linksAfter graph lastId).filter fun row => row.id = first.id with
  | nil =>
    rw [found] at listed
    cases listed
  | cons row rest =>
    rw [only row (found ▸ List.mem_cons_self)]
    exact ⟨_, rfl⟩

/-- After a full page the fetch goes on from the largest id. -/
theorem fetchAll_full {received : List LinkRow} {asked : Nat}
    (full : (page (answering graph orders request) ⟨Int32.ofInt lastId, nTake⟩).length =
      nTake.toInt.toNat)
    (fetched : fetchAll graph orders nTake asked request lastId = some received) :
    ∃ asked rest, fetchAll graph orders nTake asked (request + 1)
        (largest lastId (page (answering graph orders request) ⟨Int32.ofInt lastId, nTake⟩)) =
          some rest ∧
      received = page (answering graph orders request) ⟨Int32.ofInt lastId, nTake⟩ ++ rest := by
  cases asked with
  | zero => cases fetched
  | succ asked =>
    rw [fetchAll, if_neg (Nat.not_lt.mpr full.ge)] at fetched
    obtain ⟨rest, later, rfl⟩ := Option.map_eq_some_iff.mp fetched
    exact ⟨asked, rest, later, rfl⟩

theorem fetchAll_short {received : List LinkRow} {asked : Nat}
    (short : (page (answering graph orders request) ⟨Int32.ofInt lastId, nTake⟩).length <
      nTake.toInt.toNat)
    (fetched : fetchAll graph orders nTake asked request lastId = some received) :
    received = page (answering graph orders request) ⟨Int32.ofInt lastId, nTake⟩ := by
  cases asked with
  | zero => cases fetched
  | succ asked =>
    rw [fetchAll, if_pos short] at fetched
    exact (Option.some.inj fetched).symm

/-- What is received begins with the first page. -/
theorem page_prefix_fetchAll {received : List LinkRow} {asked : Nat}
    (fetched : fetchAll graph orders nTake asked request lastId = some received) :
    page (answering graph orders request) ⟨Int32.ofInt lastId, nTake⟩ <+: received := by
  cases asked with
  | zero => cases fetched
  | succ asked =>
    unfold fetchAll at fetched
    dsimp only at fetched
    split at fetched
    · cases fetched
      exact List.prefix_refl _
    · obtain ⟨rest, _, rfl⟩ := Option.map_eq_some_iff.mp fetched
      exact List.prefix_append ..

theorem length_page_zero (atLeastOne : 1 ≤ nTake) (positive : ∀ row ∈ graph.links, 0 < row.id)
    (enough : nTake.toInt.toNat ≤ graph.links.length) :
    (page (answering graph orders request) ⟨Int32.ofInt 0, nTake⟩).length = nTake.toInt.toNat := by
  rw [page_zero atLeastOne positive, List.length_take,
    (orders.complete request graph.links).length_eq, Nat.min_eq_left enough]

/-- More links than a page has, all with small ids: the largest one comes first,
and the others are passed over. -/
theorem missed_of_exceeding (atLeastOne : 1 ≤ nTake) (positive : ∀ row ∈ graph.links, 0 < row.id)
    (small : ∀ row ∈ graph.links, row.id.toInt < 2 ^ 31)
    (exceeding : nTake.toInt.toNat < graph.links.length) : ¬ ReceivesEveryLink graph nTake := by
  intro receives
  cases greatest : graph.links.argmax fun row => row.id.toInt with
  | none =>
    rw [List.argmax_eq_none.mp greatest] at exceeding
    exact Nat.not_lt_zero _ exceeding
  | some last =>
    have held := List.argmax_mem greatest
    obtain ⟨asked, received, fetched, perm⟩ := receives (putFirst last)
    have full : (page (answering graph (putFirst last) 0) ⟨Int32.ofInt 0, nTake⟩).length =
        nTake.toInt.toNat := length_page_zero atLeastOne positive exceeding.le
    obtain ⟨asked', rest, later, rfl⟩ := fetchAll_full full fetched
    obtain ⟨others, begins⟩ : ∃ others,
        page (answering graph (putFirst last) 0) ⟨Int32.ofInt 0, nTake⟩ = last :: others :=
      page_begins atLeastOne held (Int.le_refl 0) (by decide)
        (Int64.lt_iff_toInt_lt.mp (positive last held))
    rw [begins] at full perm later
    obtain ⟨start, sent⟩ := largest_ge (last :: others) 0
    have top := sent last List.mem_cons_self
    rw [sentId_eq held (small last held)] at top
    have none : linksAfter graph (largest 0 (last :: others)) = [] := by
      apply List.filter_eq_nil_iff.mpr
      intro row there
      have below := List.le_of_mem_argmax there greatest
      simpa using le_trans below top
    have second : page (answering graph (putFirst last) 1)
        ⟨Int32.ofInt (largest 0 (last :: others)), nTake⟩ = [] := by
      rw [page_eq atLeastOne start (largest_lt _ (by decide)), none,
        ((putFirst last).complete 1 []).eq_nil, List.take_nil]
    have nothing := fetchAll_short (by rw [second]; exact limit_pos atLeastOne) later
    rw [nothing, second, List.append_nil] at perm
    rw [perm.length_eq] at full
    exact absurd full exceeding.ne'

/-- A link with a large id is sent again on every page. -/
theorem repeated_of_large (atLeastOne : 1 ≤ nTake) (positive : ∀ row ∈ graph.links, 0 < row.id)
    {large : LinkRow} (held : large ∈ graph.links) (isLarge : 2 ^ 31 ≤ large.id.toInt)
    (enough : nTake.toInt.toNat ≤ graph.links.length) : ¬ ReceivesEveryLink graph nTake := by
  intro receives
  obtain ⟨asked, received, fetched, perm⟩ := receives (putFirst large)
  obtain ⟨asked', rest, later, rfl⟩ :=
    fetchAll_full (length_page_zero atLeastOne positive enough) fetched
  have sentOn (request : Nat) (lastId : Int) (low : 0 ≤ lastId) (high : lastId < 2 ^ 31) :
      large ∈ page (answering graph (putFirst large) request) ⟨Int32.ofInt lastId, nTake⟩ := by
    obtain ⟨others, begins⟩ : ∃ others,
        page (answering graph (putFirst large) request) ⟨Int32.ofInt lastId, nTake⟩ =
          large :: others := page_begins atLeastOne held low high (lt_of_lt_of_le high isLarge)
    rw [begins]
    exact List.mem_cons_self
  have first := sentOn 0 0 (Int.le_refl 0) (by decide)
  have again := (page_prefix_fetchAll later).subset
    (sentOn 1 _ (largest_ge _ 0).1 (largest_lt _ (by decide)))
  have once := perm.symm.nodup graph.linksDistinct.of_map
  exact List.disjoint_of_nodup_append once first again

/-- **A page without an order passes links over.** In every order all links are
received once, exactly if one page has room for them. -/
theorem receives_every_link_iff (graph : LinkedGraph) (nTake : Int32) (atLeastOne : 1 ≤ nTake)
    (positive : ∀ row ∈ graph.links, 0 < row.id) :
    ReceivesEveryLink graph nTake ↔ OnePage graph nTake := by
  constructor
  · intro receives
    by_contra many
    have enough : nTake.toInt.toNat ≤ graph.links.length :=
      Nat.le_of_not_lt fun room => many (Or.inl room)
    by_cases small : ∀ row ∈ graph.links, row.id.toInt < 2 ^ 31
    · have exceeding : nTake.toInt.toNat < graph.links.length :=
        Nat.lt_of_le_of_ne enough fun full => many (Or.inr ⟨full.symm, small⟩)
      exact missed_of_exceeding atLeastOne positive small exceeding receives
    · obtain ⟨large, notSmall⟩ := not_forall.mp small
      obtain ⟨held, isLarge⟩ := Classical.not_imp.mp notSmall
      exact repeated_of_large atLeastOne positive held (Int.not_lt.mp isLarge) enough receives
  · exact received_of_fits atLeastOne positive

/-- Six links, on pages of six. -/
theorem six_links_received_iff :
    ReceivesEveryLink sixParallelLinks.graph 6 ↔ OnePage sixParallelLinks.graph 6 :=
  receives_every_link_iff sixParallelLinks.graph 6 (by decide) (by decide)

/-- On pages of five, the sixth may come first, and the page after it is empty. -/
theorem six_links_missed : ¬ ∀ (graph : LinkedGraph) (nTake : Int32), 1 ≤ nTake →
    (∀ row ∈ graph.links, 0 < row.id) → ReceivesEveryLink graph nTake := by
  intro claimed
  have positive : ∀ row ∈ sixParallelLinks.graph.links, 0 < row.id := by decide
  have atLeastOne : (1 : Int32) ≤ 5 := by decide
  exact missed_of_exceeding atLeastOne positive (by decide) (by decide)
    (claimed sixParallelLinks.graph 5 atLeastOne positive)

end NetGraphz.LinkPaging
