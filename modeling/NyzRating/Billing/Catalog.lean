import NyzRating.Billing.Subscription

/-!
# The seeded catalog

The rows of `default_catalog_rows` that are active.
-/

namespace NyzRating.Billing

open Calendar

/-- A plan of the catalog limits nothing but the questions of a month. -/
def questionPlan (code name : String) (priceCents questionsMonthly trialDays : Int) : BillingPlan :=
  { code, name, priceCents, includedKbs := 0, includedStorageGb := 0
    includedQuestionsMonthly := questionsMonthly, maxUsers := none, trialDays, includedTrainingChars := 0 }

def defaultPlans : PlanCatalog where
  plans := [
    questionPlan "free" "Teszt" 0 3 7,
    questionPlan "starter" "Starter" 890000 40 0,
    questionPlan "pro" "Pro" 1890000 150 0,
    questionPlan "business" "Giga" 3490000 400 0]
  hasFree := by decide

def defaultAddons : List BillingAddon :=
  [{ code := "question_pack_50", name := "50 extra SMS", priceCents := 590000, trainingChars := none }]

/-- A call at time `now` on the seeded catalog: the simulated provider, mails accepted, schemas dropped. -/
def Env.seeded (now : Int) : Env where
  now
  utcnow := now
  plans := defaultPlans
  addons := defaultAddons
  charge _ := { success := true, status := "succeeded", paymentMethod := "stripe_test_card" }
  sendEmail _ _ := true
  dropSchema _ := true
  billingProfile :=
    { companyName := "Minta Kft.", taxId := "12892312-1-42", addressLine := "Fő utca 1.", postalCode := "1011"
      city := "Budapest", taxIdIsValid := true }

/-- A tenant that was just created, with no other rows. -/
def Account.created (slug name : String) (createdAt : Int) : Account :=
  { tenant := { id := 1, slug, name, createdAt, isActive := true } }

end NyzRating.Billing
