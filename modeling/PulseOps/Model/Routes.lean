import Mathlib.Data.List.Basic

/-!
# The routes of the staff API

The routes of `app/routes.js` that ask for a staff token: how each is guarded, and the calls
its handler makes to Prisma. A handler that a support token reaches is written out, as the
calls that it can make in their order. For every other handler the guards are enough.

The rate limits, uploads and idempotency keys of the writing routes come after
`authenticate()` and are left out, and so are the routes that ask for no token at all.
-/

set_option autoImplicit false

namespace PulseOps.Routes

/-! ### Calls to Prisma -/

/-- The models of `schema.prisma` that the reading handlers use. -/
inductive PrismaModel where
  | activityLog
  | attributeDefinition
  | attributeValue
  | auditLog
  | cashRegister
  | cashSession
  | category
  | customer
  | customerAddress
  | inventory
  | inventoryMovement
  | notification
  | notificationTemplate
  | order
  | orderStatusHistory
  | payment
  | permission
  | product
  | productCategory
  | productImage
  | productVariant
  | productVariantAttribute
  | refund
  | report
  | reportSchedule
  | role
  | supportSession
  | tenant
  | tenantDomain
  | tenantPaymentGateway
  | tenantSettings
  | user
  | userRole
  | warehouse
  deriving DecidableEq, Repr

inductive Operation where
  | findUnique
  | findFirst
  | findMany
  | count
  | aggregate
  | groupBy
  /-- `$queryRawUnsafe` of a `SELECT` -/
  | select
  | create
  | createMany
  | update
  | updateMany
  | upsert
  | delete
  | deleteMany
  deriving DecidableEq, Repr

def Operation.writes : Operation → Bool
  | findUnique | findFirst | findMany | count | aggregate | groupBy | select => false
  | create | createMany | update | updateMany | upsert | delete | deleteMany => true

/-- A call to Prisma. -/
structure PrismaCall where
  model : PrismaModel
  operation : Operation
  deriving DecidableEq, Repr

/-- One row. -/
def one (model : PrismaModel) : List PrismaCall := [⟨model, .findFirst⟩]

/-- One page of the rows, and how many there are. -/
def page (model : PrismaModel) : List PrismaCall := [⟨model, .findMany⟩, ⟨model, .count⟩]

/-! ### Handlers -/

inductive Handler where
  /-- the calls it can make, in their order -/
  | calls (calls : List PrismaCall)
  /-- `cashRegisterService.list` -/
  | listRegisters
  /-- a handler that no support token reaches -/
  | other
  deriving DecidableEq, Repr

namespace Handler

/-- `supportService.describe`, for a support token. -/
def me : Handler := .calls [⟨.supportSession, .findUnique⟩]

def getWorkspace : Handler := .calls [⟨.tenant, .findUnique⟩]

def getSettings : Handler := .calls [⟨.tenantSettings, .findUnique⟩]

def getTaxProfile : Handler := .calls [⟨.tenantSettings, .findUnique⟩]

def listDomains : Handler := .calls [⟨.tenantDomain, .findMany⟩]

def getPaymentGateway : Handler := .calls [⟨.tenantPaymentGateway, .findUnique⟩]

def listRoles : Handler := .calls (page .role)

def getRole : Handler := .calls (one .role)

/-- The cache may answer in its place. -/
def listPermissions : Handler := .calls [⟨.permission, .findMany⟩]

def getPermission : Handler := .calls (one .permission)

def listUsers : Handler := .calls (page .user)

def getUser : Handler := .calls (one .user)

def getUserRoles : Handler := .calls (one .user ++ [⟨.userRole, .findMany⟩])

def listCategories : Handler := .calls (page .category)

def getCategoryTree : Handler := .calls [⟨.category, .findMany⟩]

def getCategory : Handler := .calls (one .category)

/-- The cache may answer in its place. -/
def listProducts : Handler := .calls (page .product)

def getProduct : Handler := .calls (one .product)

def getProductCategories : Handler := .calls (one .product ++ [⟨.productCategory, .findMany⟩])

def listVariants : Handler := .calls (one .product ++ page .productVariant)

def getVariant : Handler := .calls (one .productVariant)

def getVariantAttributes : Handler :=
  .calls (one .productVariant ++ [⟨.productVariantAttribute, .findMany⟩])

def listProductImages : Handler := .calls (one .product ++ page .productImage)

def listVariantImages : Handler :=
  .calls (one .product ++ one .productVariant ++ page .productImage)

def getProductImage : Handler := .calls (one .productImage)

/-- The file comes from the object store. -/
def getProductImageFile : Handler := getProductImage

def getProductImageSignedUrl : Handler := getProductImage

def listAttributes : Handler := .calls (page .attributeDefinition)

def getAttribute : Handler := .calls (one .attributeDefinition)

def listAttributeValues : Handler := .calls (one .attributeDefinition ++ page .attributeValue)

def getAttributeValue : Handler := .calls (one .attributeValue)

def listWarehouses : Handler := .calls (page .warehouse)

def getWarehouse : Handler := .calls (one .warehouse)

def listInventory : Handler := .calls (page .inventory)

def listMovements : Handler := .calls (page .inventoryMovement)

def lowStock : Handler := .calls (page .inventory)

def getVariantInventory : Handler := .calls (one .productVariant ++ [⟨.inventory, .findMany⟩])

def listCustomers : Handler := .calls (page .customer)

def getCustomer : Handler := .calls (one .customer)

def listCustomerOrders : Handler := .calls (one .customer ++ page .order)

def listAddresses : Handler := .calls (one .customer ++ [⟨.customerAddress, .findMany⟩])

def listOrders : Handler := .calls (page .order)

def getOrder : Handler := .calls (one .order)

def getOrderHistory : Handler := .calls (one .order ++ page .orderStatusHistory)

def listSessions : Handler := .calls (page .cashSession)

def getSession : Handler := .calls (one .cashSession)

/-- `cashRegisterService.current`. -/
def current : Handler := .calls (one .cashRegister ++ one .cashSession)

def listPayments : Handler := .calls (page .payment)

def getPayment : Handler := .calls (one .payment)

def listAuditLogs : Handler := .calls (page .auditLog)

def listActivityLogs : Handler := .calls (page .activityLog)

def getActivityLog : Handler := .calls (one .activityLog)

def listTemplates : Handler := .calls (page .notificationTemplate)

def getTemplate : Handler := .calls (one .notificationTemplate)

/-- It asks the workers alone. -/
def getJobsStatus : Handler := .calls []

def listReports : Handler := .calls (page .report)

def getReport : Handler := .calls (one .report)

/-- `assertCanRead` lets a support token pass at once. -/
def downloadReport : Handler := .calls (one .report)

def listReportSchedules : Handler := .calls (page .reportSchedule)

def getReportSchedule : Handler := .calls (one .reportSchedule)

/-- `DashboardService.buildOverview`, section by section. The cache may answer in its place. -/
def dashboardOverview : Handler :=
  .calls [⟨.order, .count⟩, ⟨.order, .groupBy⟩, ⟨.order, .findMany⟩, ⟨.order, .aggregate⟩,
    ⟨.warehouse, .count⟩, ⟨.productVariant, .count⟩, ⟨.inventory, .count⟩,
    ⟨.inventory, .aggregate⟩,
    ⟨.payment, .count⟩, ⟨.payment, .groupBy⟩, ⟨.payment, .aggregate⟩, ⟨.payment, .findMany⟩,
    ⟨.user, .count⟩, ⟨.user, .groupBy⟩, ⟨.user, .findMany⟩,
    ⟨.notification, .count⟩, ⟨.notification, .count⟩, ⟨.notification, .findMany⟩,
    ⟨.product, .count⟩, ⟨.category, .count⟩, ⟨.productVariant, .count⟩]

/-! The analytics skip the calls that their filters do not need, and the cache may answer in
their place. -/

def analyticsOverview : Handler :=
  .calls [⟨.order, .count⟩, ⟨.order, .groupBy⟩, ⟨.order, .aggregate⟩, ⟨.customer, .count⟩,
    ⟨.product, .count⟩, ⟨.productVariant, .count⟩, ⟨.warehouse, .count⟩,
    ⟨.inventory, .aggregate⟩, ⟨.inventory, .count⟩, ⟨.payment, .count⟩,
    ⟨.payment, .aggregate⟩, ⟨.refund, .aggregate⟩]

def analyticsSales : Handler :=
  .calls [⟨.order, .select⟩, ⟨.order, .count⟩, ⟨.order, .aggregate⟩, ⟨.order, .select⟩,
    ⟨.order, .select⟩, ⟨.order, .select⟩]

def analyticsOrders : Handler :=
  .calls [⟨.order, .count⟩, ⟨.order, .groupBy⟩, ⟨.order, .aggregate⟩, ⟨.order, .select⟩,
    ⟨.order, .select⟩, ⟨.order, .count⟩, ⟨.order, .groupBy⟩]

def analyticsInventory : Handler :=
  .calls [⟨.inventory, .select⟩, ⟨.inventory, .select⟩, ⟨.inventory, .aggregate⟩,
    ⟨.inventory, .groupBy⟩, ⟨.inventory, .groupBy⟩, ⟨.inventory, .count⟩,
    ⟨.inventory, .count⟩, ⟨.inventory, .findMany⟩, ⟨.inventory, .count⟩,
    ⟨.inventory, .groupBy⟩, ⟨.warehouse, .findMany⟩]

def analyticsCustomers : Handler :=
  .calls [⟨.customer, .count⟩, ⟨.order, .count⟩, ⟨.order, .select⟩, ⟨.order, .select⟩,
    ⟨.customer, .select⟩, ⟨.customer, .select⟩]

def analyticsRevenue : Handler :=
  .calls [⟨.payment, .aggregate⟩, ⟨.refund, .aggregate⟩, ⟨.payment, .count⟩,
    ⟨.payment, .select⟩, ⟨.payment, .select⟩, ⟨.refund, .select⟩]

/-- The file comes from the object store. -/
def getAuthenticatedFile : Handler := .calls []

end Handler

/-! ### Routes -/

inductive Method where
  | get
  | head
  | options
  | post
  | put
  | patch
  | delete
  deriving DecidableEq, Repr

/-- A guard between `authenticate()` and the handler. -/
inductive Guard where
  | validate
  | authorize (permission : String)
  deriving DecidableEq, Repr

structure Route where
  method : Method
  path : String
  guards : List Guard
  handler : Handler
  /-- the option of `authenticate()` -/
  allowSupport : Bool := true
  deriving DecidableEq, Repr

/-- Express answers `HEAD` with the handler of `GET`. -/
def Route.serves (r : Route) (method : Method) : Bool :=
  method = r.method ∨ (method = .head ∧ r.method = .get)

def get (path : String) (guards : List Guard) (handler : Handler) : Route :=
  { method := .get, path, guards, handler }

def post (path : String) (guards : List Guard) : Route :=
  { method := .post, path, guards, handler := .other }

def put (path : String) (guards : List Guard) : Route :=
  { method := .put, path, guards, handler := .other }

def patch (path : String) (guards : List Guard) : Route :=
  { method := .patch, path, guards, handler := .other }

def delete (path : String) (guards : List Guard) : Route :=
  { method := .delete, path, guards, handler := .other }

/-- `authenticate({ allowSupport: false })`. -/
def withoutSupport (routes : List Route) : List Route :=
  routes.map fun r => { r with allowSupport := false }

/-- `apiRouter.use`. -/
def mount (path : String) (routes : List Route) : List Route :=
  routes.map fun r => { r with path := path ++ r.path }

open Handler

def authRouter : List Route :=
  [ get "/me" [] me,
    patch "/me" [.validate],
    post "/resend-verification" [] ] ++
  -- `authenticateAnyScope`
  withoutSupport
    [ post "/change-password" [.validate],
      get "/sessions" [] .other,
      delete "/sessions/:sessionId" [.validate],
      post "/logout-all" [] ]

def workspaceRouter : List Route :=
  [ get "/" [.authorize "tenant:read"] getWorkspace,
    patch "/" [.validate, .authorize "tenant:update"],
    get "/settings" [.authorize "tenant:read"] getSettings,
    patch "/settings" [.validate, .authorize "tenant:update"],
    get "/tax-profile" [.authorize "tenant:read"] getTaxProfile,
    patch "/tax-profile" [.validate, .authorize "tenant:update"],
    get "/domains" [.authorize "tenant:read"] listDomains,
    post "/domains" [.validate, .authorize "tenant:update"],
    patch "/domains/:domainId" [.validate, .authorize "tenant:update"],
    post "/domains/:domainId/verify" [.validate, .authorize "tenant:update"],
    delete "/domains/:domainId" [.validate, .authorize "tenant:update"],
    get "/payment-gateway" [.authorize "tenant:read"] getPaymentGateway,
    put "/payment-gateway" [.validate, .authorize "tenant:update"],
    patch "/payment-gateway" [.validate, .authorize "tenant:update"],
    delete "/payment-gateway" [.authorize "tenant:update"] ]

def rolesRouter : List Route :=
  [ get "/" [.validate, .authorize "role:read"] listRoles,
    get "/:id" [.validate, .authorize "role:read"] getRole,
    post "/" [.validate, .authorize "role:create"],
    patch "/:id" [.validate, .authorize "role:update"],
    delete "/:id" [.validate, .authorize "role:delete"],
    post "/:id/permissions" [.validate, .authorize "role:update"],
    put "/:id/permissions" [.validate, .authorize "role:update"],
    delete "/:id/permissions/:permissionId" [.validate, .authorize "role:update"] ]

def permissionsRouter : List Route :=
  [ get "/" [.validate, .authorize "permission:read"] listPermissions,
    get "/:id" [.validate, .authorize "permission:read"] getPermission ]

def usersRouter : List Route :=
  [ get "/" [.validate, .authorize "user:read"] listUsers,
    get "/:id" [.validate, .authorize "user:read"] getUser,
    patch "/:id" [.validate, .authorize "user:update"],
    delete "/:id" [.validate, .authorize "user:delete"],
    get "/:id/roles" [.validate, .authorize "user:read"] getUserRoles,
    post "/:id/roles" [.validate, .authorize "user:update"],
    delete "/:id/roles/:roleId" [.validate, .authorize "user:update"] ]

def categoriesRouter : List Route :=
  [ post "/" [.validate, .authorize "category:create"],
    get "/" [.validate, .authorize "category:read"] listCategories,
    get "/tree" [.validate, .authorize "category:read"] getCategoryTree,
    get "/:id" [.validate, .authorize "category:read"] getCategory,
    patch "/:id" [.validate, .authorize "category:update"],
    delete "/:id" [.validate, .authorize "category:delete"] ]

def productsRouter : List Route :=
  [ post "/" [.validate, .authorize "product:create"],
    get "/" [.validate, .authorize "product:read"] listProducts,
    get "/:id" [.validate, .authorize "product:read"] getProduct,
    patch "/:id" [.validate, .authorize "product:update"],
    delete "/:id" [.validate, .authorize "product:delete"],
    post "/:productId/categories" [.validate, .authorize "product:update"],
    get "/:productId/categories" [.validate, .authorize "product:read"] getProductCategories ]

def variantsRouter : List Route :=
  [ post "/" [.validate, .authorize "product:create"],
    get "/" [.validate, .authorize "product:read"] listVariants,
    get "/:variantId" [.validate, .authorize "product:read"] getVariant,
    patch "/:variantId" [.validate, .authorize "product:update"],
    delete "/:variantId" [.validate, .authorize "product:delete"],
    put "/:variantId/attributes" [.validate, .authorize "product:update"],
    get "/:variantId/attributes" [.validate, .authorize "product:read"] getVariantAttributes ]

def attributesRouter : List Route :=
  [ post "/" [.validate, .authorize "attribute:create"],
    get "/" [.validate, .authorize "attribute:read"] listAttributes,
    get "/:id" [.validate, .authorize "attribute:read"] getAttribute,
    patch "/:id" [.validate, .authorize "attribute:update"],
    delete "/:id" [.validate, .authorize "attribute:delete"],
    post "/:attributeId/values" [.validate, .authorize "attribute:update"],
    get "/:attributeId/values" [.validate, .authorize "attribute:read"] listAttributeValues,
    get "/:attributeId/values/:valueId" [.validate, .authorize "attribute:read"]
      getAttributeValue,
    patch "/:attributeId/values/:valueId" [.validate, .authorize "attribute:update"],
    delete "/:attributeId/values/:valueId" [.validate, .authorize "attribute:delete"] ]

def warehousesRouter : List Route :=
  [ post "/" [.validate, .authorize "warehouse:create"],
    get "/" [.validate, .authorize "warehouse:read"] listWarehouses,
    get "/:id" [.validate, .authorize "warehouse:read"] getWarehouse,
    patch "/:id" [.validate, .authorize "warehouse:update"],
    delete "/:id" [.validate, .authorize "warehouse:delete"] ]

def inventoryRouter : List Route :=
  [ get "/" [.validate, .authorize "inventory:read"] listInventory,
    get "/movements" [.validate, .authorize "inventory:read"] listMovements,
    get "/low-stock" [.validate, .authorize "inventory:read"] lowStock,
    get "/variants/:variantId" [.validate, .authorize "inventory:read"] getVariantInventory,
    post "/adjust" [.validate, .authorize "inventory:update"],
    post "/transfer" [.validate, .authorize "inventory:update"] ]

def customersRouter : List Route :=
  [ post "/" [.validate, .authorize "customer:create"],
    get "/" [.validate, .authorize "customer:read"] listCustomers,
    get "/:id" [.validate, .authorize "customer:read"] getCustomer,
    patch "/:id" [.validate, .authorize "customer:update"],
    delete "/:id" [.validate, .authorize "customer:delete"],
    get "/:id/orders" [.validate, .authorize "customer:read", .authorize "order:read"]
      listCustomerOrders,
    get "/:id/addresses" [.validate, .authorize "customer:read"] listAddresses,
    post "/:id/addresses" [.validate, .authorize "customer:update"],
    patch "/:id/addresses/:addressId" [.validate, .authorize "customer:update"],
    delete "/:id/addresses/:addressId" [.validate, .authorize "customer:update"] ]

def ordersRouter : List Route :=
  [ post "/" [.validate, .authorize "order:create"],
    get "/" [.validate, .authorize "order:read"] listOrders,
    get "/:id" [.validate, .authorize "order:read"] getOrder,
    patch "/:id/status" [.validate, .authorize "order:update"],
    post "/:id/cancel" [.validate, .authorize "order:cancel"],
    get "/:id/history" [.validate, .authorize "order:read"] getOrderHistory ]

def posRouter : List Route :=
  [ get "/context" [.authorize "pos:sell"] .other,
    get "/lookup" [.validate, .authorize "pos:sell"] .other,
    post "/sales" [.validate, .authorize "pos:sell"],
    get "/held-sales" [.authorize "pos:sell"] .other,
    post "/held-sales" [.validate, .authorize "pos:sell"],
    delete "/held-sales/:id" [.validate, .authorize "pos:sell"],
    post "/upi-qr" [.validate, .authorize "pos:sell"],
    get "/upi-qr/:qrId" [.validate, .authorize "pos:sell"] .other ]

def cashRegistersRouter : List Route :=
  [ get "/" [.authorize "cash_register:read"] .listRegisters,
    post "/" [.validate, .authorize "cash_register:manage"],
    get "/sessions" [.validate, .authorize "cash_register:read"] listSessions,
    get "/sessions/:sessionId" [.validate, .authorize "cash_register:read"] getSession,
    post "/sessions/:sessionId/movements" [.validate, .authorize "cash_register:manage"],
    post "/sessions/:sessionId/close" [.validate, .authorize "cash_register:manage"],
    get "/:registerId/current" [.validate, .authorize "cash_register:read"] current,
    post "/:registerId/open" [.validate, .authorize "cash_register:manage"] ]

def paymentsRouter : List Route :=
  [ post "/create" [.validate, .authorize "payment:create"],
    post "/confirm" [.validate, .authorize "payment:confirm"],
    get "/" [.validate, .authorize "payment:read"] listPayments,
    get "/:id" [.validate, .authorize "payment:read"] getPayment,
    post "/:id/refund" [.validate, .authorize "payment:refund"] ]

def auditRouter : List Route := [get "/" [.validate, .authorize "audit:read"] listAuditLogs]

def activityRouter : List Route :=
  [ get "/" [.validate, .authorize "activity:read"] listActivityLogs,
    get "/:id" [.validate, .authorize "activity:read"] getActivityLog ]

/-- A personal inbox. -/
def notificationsRouter : List Route :=
  withoutSupport
    [ get "/" [.validate, .authorize "notification:read"] .other,
      post "/read-all" [.authorize "notification:update"],
      patch "/:id/read" [.validate, .authorize "notification:update"] ]

/-- `GET` also creates default rows. -/
def notificationPreferencesRouter : List Route :=
  withoutSupport
    [ get "/" [.authorize "notification:read"] .other,
      patch "/" [.validate, .authorize "notification:update"] ]

def notificationTemplatesRouter : List Route :=
  [ get "/" [.validate, .authorize "notification_template:read"] listTemplates,
    post "/" [.validate, .authorize "notification_template:create"],
    get "/:id" [.validate, .authorize "notification_template:read"] getTemplate,
    patch "/:id" [.validate, .authorize "notification_template:update"],
    delete "/:id" [.validate, .authorize "notification_template:delete"],
    post "/:id/preview" [.validate, .authorize "notification_template:read"] ]

def jobsRouter : List Route :=
  [ get "/status" [.authorize "jobs:read"] getJobsStatus,
    post "/cleanup" [.authorize "jobs:manage"],
    post "/notifications" [.validate, .authorize "jobs:manage"],
    post "/reports" [.authorize "jobs:manage", .validate],
    post "/analytics" [.authorize "jobs:manage", .validate] ]

def reportsRouter : List Route :=
  [ post "/" [.validate, .authorize "report:create"],
    get "/" [.validate, .authorize "report:read"] listReports,
    get "/:id" [.validate, .authorize "report:read"] getReport,
    get "/:id/download" [.validate, .authorize "report:read"] downloadReport ]

def reportSchedulesRouter : List Route :=
  [ post "/" [.validate, .authorize "report:create"],
    get "/" [.validate, .authorize "report:read"] listReportSchedules,
    get "/:id" [.validate, .authorize "report:read"] getReportSchedule,
    patch "/:id" [.validate, .authorize "report:create"],
    delete "/:id" [.validate, .authorize "report:create"] ]

def dashboardRouter : List Route :=
  [get "/overview" [.authorize "dashboard:read"] dashboardOverview]

def analyticsRouter : List Route :=
  [ get "/overview" [.validate, .authorize "analytics:read"] analyticsOverview,
    get "/sales" [.validate, .authorize "analytics:read"] analyticsSales,
    get "/orders" [.validate, .authorize "analytics:read"] analyticsOrders,
    get "/inventory" [.validate, .authorize "analytics:read"] analyticsInventory,
    get "/customers" [.validate, .authorize "analytics:read"] analyticsCustomers,
    get "/revenue" [.validate, .authorize "analytics:read"] analyticsRevenue ]

def storageRouter : List Route := [get "/file" [] getAuthenticatedFile]

def productImagesRouter : List Route :=
  [ post "/products/:productId/images" [.validate, .authorize "product:update"],
    post "/products/:productId/variants/:variantId/images"
      [.validate, .authorize "product:update"],
    get "/products/:productId/images" [.validate, .authorize "product:read"] listProductImages,
    get "/products/:productId/variants/:variantId/images" [.validate, .authorize "product:read"]
      listVariantImages,
    get "/products/:productId/images/:imageId" [.validate, .authorize "product:read"]
      getProductImage,
    patch "/products/:productId/images/:imageId" [.validate, .authorize "product:update"],
    delete "/products/:productId/images/:imageId" [.validate, .authorize "product:delete"],
    get "/products/:productId/images/:imageId/file" [.validate, .authorize "product:read"]
      getProductImageFile,
    get "/products/:productId/images/:imageId/signed-url" [.validate, .authorize "product:read"]
      getProductImageSignedUrl ]

/-- The routes behind `authenticate()`. -/
def apiRouter : List Route :=
  mount "/auth" authRouter ++
  mount "/workspace" workspaceRouter ++
  mount "/roles" rolesRouter ++
  mount "/permissions" permissionsRouter ++
  mount "/users" usersRouter ++
  mount "/categories" categoriesRouter ++
  mount "/products" productsRouter ++
  mount "/products/:productId/variants" variantsRouter ++
  mount "/attributes" attributesRouter ++
  mount "/warehouses" warehousesRouter ++
  mount "/inventory" inventoryRouter ++
  mount "/customers" customersRouter ++
  mount "/orders" ordersRouter ++
  mount "/pos" posRouter ++
  mount "/cash-registers" cashRegistersRouter ++
  mount "/payments" paymentsRouter ++
  mount "/audit-logs" auditRouter ++
  mount "/activity-logs" activityRouter ++
  mount "/notifications" notificationsRouter ++
  mount "/notification-preferences" notificationPreferencesRouter ++
  mount "/notification-templates" notificationTemplatesRouter ++
  mount "/jobs" jobsRouter ++
  mount "/reports" reportsRouter ++
  mount "/report-schedules" reportSchedulesRouter ++
  mount "/dashboard" dashboardRouter ++
  mount "/analytics" analyticsRouter ++
  mount "/storage" storageRouter ++
  productImagesRouter

end PulseOps.Routes
