import SourceAtlas.Role

/-!
# Rules for roles

The names and phrases that tell the role of a file.  Names are written without
separators and in small letters.  A longer suffix stands before every shorter
one that it ends with, and earlier phrases win over later ones.
-/

namespace SourceAtlas.Classification

abbrev Rule := String × Role

def suffixRules : List Rule :=
  [("commandhandler", .handler), ("queryhandler", .handler), ("eventhandler", .handler),
    ("controller", .controller), ("modelsnapshot", .migration), ("dbcontext", .dbContext),
    ("repository", .repository), ("repositories", .repository), ("services", .service),
    ("service", .service), ("handler", .handler), ("handlers", .handler),
    ("middleware", .middleware), ("extensions", .extension), ("extension", .extension),
    ("configuration", .configuration), ("config", .configuration),
    ("settings", .configuration), ("options", .configuration), ("validator", .validator),
    ("validators", .validator), ("exception", .exception), ("exceptions", .exception),
    ("errors", .exception), ("builder", .builder), ("command", .command), ("query", .query),
    ("event", .event), ("viewmodel", .dto), ("viewmodels", .dto), ("dto", .dto),
    ("request", .dto), ("response", .dto), ("schemas", .dto), ("schema", .dto),
    ("serializers", .dto), ("serializer", .dto), ("views", .controller),
    ("routes", .controller), ("router", .controller), ("models", .entity), ("entity", .entity),
    ("valueobject", .valueObject), ("migration", .migration), ("utilities", .utility),
    ("utils", .utility), ("util", .utility), ("helpers", .utility), ("helper", .utility)]

def directoryRules : List Rule :=
  [("controllers", .controller), ("endpoints", .controller), ("routers", .controller),
    ("views", .controller), ("services", .service), ("repositories", .repository),
    ("repository", .repository), ("entities", .entity), ("models", .entity), ("dtos", .dto),
    ("contracts", .dto), ("requests", .dto), ("responses", .dto), ("viewmodels", .dto),
    ("schemas", .dto), ("configurations", .configuration), ("configuration", .configuration),
    ("config", .configuration), ("settings", .configuration), ("handlers", .handler),
    ("middlewares", .middleware), ("middleware", .middleware), ("extensions", .extension),
    ("migrations", .migration), ("events", .event), ("valueobjects", .valueObject),
    ("commands", .command), ("queries", .query), ("validators", .validator),
    ("validation", .validator), ("exceptions", .exception), ("errors", .exception),
    ("utilities", .utility), ("utils", .utility), ("helpers", .utility),
    ("interfaces", .interface), ("abstractions", .abstraction), ("builders", .builder),
    ("contexts", .dbContext)]

def csharpRules : List Rule :=
  [("ControllerBase", .controller), ("[ApiController]", .controller),
    (": Controller", .controller), (": DbContext", .dbContext), ("DbSet<", .dbContext),
    (": Migration", .migration), ("[Migration(", .migration),
    ("IEntityTypeConfiguration<", .configuration), ("IRequestHandler<", .handler),
    ("INotificationHandler<", .handler), ("ICommandHandler<", .handler),
    ("IQueryHandler<", .handler), ("AbstractValidator<", .validator),
    ("RequestDelegate", .middleware), ("IMiddleware", .middleware), ("ICommand", .command),
    ("IQuery<", .query), ("INotification", .event), ("IDomainEvent", .event),
    (": ValueObject", .valueObject), (": Exception", .exception), ("(this ", .extension),
    ("interface ", .interface), ("abstract class", .abstraction)]

def pythonRules : List Rule :=
  [("APIRouter(", .controller), ("Blueprint(", .controller), ("@app.route", .controller),
    ("(Exception)", .exception), ("(BaseModel)", .dto), ("declarative_base", .entity),
    ("models.Model", .entity), ("(ABC)", .abstraction)]

end SourceAtlas.Classification
